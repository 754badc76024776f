/-!
# Wide texts

An escape can name half of a surrogate pair, which is a code point and no character. A wide text is
a text that may hold such halves. `shown` is what can be seen of it: two halves that make a pair
show as its character, and any other half as the replacement character. So two wide texts can differ
and still look the same, but `shown_ofString` says that a text without halves shows as itself.
-/

namespace MachineRbi

/-- A text of code points, of which some may be halves of surrogate pairs. -/
@[ext]
structure WideText where
  points : List Nat
  /-- No number beyond the last code point occurs. -/
  bounded : ∀ point ∈ points, point < 0x110000
  deriving Repr

namespace WideText

/-- The code points are the same. -/
def samePoints : List Nat → List Nat → Bool
  | [], [] => true
  | a :: as, b :: bs => a == b && samePoints as bs
  | _, _ => false

/-- Lists with the same code points are equal. -/
theorem samePoints_iff {as bs : List Nat} : samePoints as bs ↔ as = bs := by
  induction as generalizing bs with
  | nil => cases bs <;> simp [samePoints]
  | cons a as ih => cases bs <;> simp [samePoints, ih]

/-- Equality of texts is decided code point by code point. -/
instance : DecidableEq WideText := fun a b =>
  decidable_of_iff (samePoints a.points b.points) (by
    cases a
    cases b
    simp [samePoints_iff])

/-- Texts are put in order code point by code point. -/
instance : Ord WideText :=
  ⟨fun a b => compare a.points b.points⟩

/-- The characters as a wide text. -/
def ofChars (cs : List Char) : WideText where
  points := cs.map Char.toNat
  bounded := by
    intro point hmem
    obtain ⟨c, -, rfl⟩ := List.mem_map.mp hmem
    exact c.valid.elim (fun h => Nat.lt_trans h (by decide)) And.right

/-- A code point as a wide text. -/
def ofPoint (point : Nat) (h : point < 0x110000) : WideText where
  points := [point]
  bounded := by simpa using h

/-- A text as a wide text. -/
def ofString (s : String) : WideText :=
  ofChars s.toList

/-- Every text is a wide text. -/
instance : Coe String WideText :=
  ⟨ofString⟩

/-- One text after another. -/
instance : Append WideText :=
  ⟨fun a b => ⟨a.points ++ b.points, fun point hmem =>
    (List.mem_append.mp hmem).elim (a.bounded point) (b.bounded point)⟩⟩

/-- The code points of a text, each as a text. -/
def singles (text : WideText) : List WideText :=
  text.points.attach.map fun ⟨point, hmem⟩ => ofPoint point (text.bounded point hmem)

/-- The code point is the half of a pair that comes first. -/
def isHighHalf (point : Nat) : Bool :=
  0xD800 ≤ point && point < 0xDC00

/-- The code point is the half of a pair that comes last. -/
def isLowHalf (point : Nat) : Bool :=
  0xDC00 ≤ point && point < 0xE000

/-- Half of a pair is a code point of the text. -/
def hasHalf (text : WideText) : Bool :=
  text.points.any fun point => isHighHalf point || isLowHalf point

/-- Texts with a separator between them. -/
def intercalate (separator : WideText) : List WideText → WideText
  | [] => ""
  | [text] => text
  | text :: next :: rest => text ++ separator ++ intercalate separator (next :: rest)

/-- The character that two halves make. -/
def joinHalves (high low : Nat) : Char :=
  Char.ofNat (0x10000 + (high - 0xD800) * 0x400 + (low - 0xDC00))

/-- The character at a code point; the replacement character stands for half a pair. -/
def charAt (point : Nat) : Char :=
  if point.isValidChar then Char.ofNat point else '\uFFFD'

/-- The characters of a text, one for each code point. -/
def chars (text : WideText) : List Char :=
  text.points.map charAt

/-- The characters that code points show. -/
def shownChars : List Nat → List Char
  | [] => []
  | [point] => [charAt point]
  | point :: next :: rest =>
    if isHighHalf point && isLowHalf next then joinHalves point next :: shownChars rest
    else charAt point :: shownChars (next :: rest)

/-- What can be seen of a text. -/
def shown (text : WideText) : String :=
  String.ofList (shownChars text.points)

/-- The character at the code point of a character is that character. -/
theorem charAt_toNat (c : Char) : charAt c.toNat = c := by
  have valid : c.toNat.isValidChar := c.valid
  rw [charAt, if_pos valid, Char.ofNat_toNat]

/-- Characters come back from their code points. -/
@[simp]
theorem chars_ofChars (cs : List Char) : (ofChars cs).chars = cs := by
  simp [ofChars, chars, Function.comp_def, charAt_toNat]

/-- No character is the half of a pair that comes first. -/
theorem isHighHalf_toNat (c : Char) : isHighHalf c.toNat = false := by
  have valid : c.toNat.isValidChar := c.valid
  simp only [isHighHalf, Bool.and_eq_false_imp, decide_eq_true_eq, decide_eq_false_iff_not]
  rcases valid with below | ⟨above, _⟩ <;> omega

/-- No character is the half of a pair that comes last. -/
theorem isLowHalf_toNat (c : Char) : isLowHalf c.toNat = false := by
  have valid : c.toNat.isValidChar := c.valid
  simp only [isLowHalf, Bool.and_eq_false_imp, decide_eq_true_eq, decide_eq_false_iff_not]
  rcases valid with below | ⟨above, _⟩ <;> omega

/-- A text of characters has no halves. -/
@[simp]
theorem hasHalf_ofString (s : String) : (ofString s).hasHalf = false := by
  simp [hasHalf, ofString, ofChars, isHighHalf_toNat, isLowHalf_toNat]

/-- Half of a pair in two texts after each other is in one of them. -/
@[simp]
theorem hasHalf_append (a b : WideText) : (a ++ b).hasHalf = (a.hasHalf || b.hasHalf) :=
  List.any_append

/-- Half of a pair in texts after each other is in one of them if none is between them. -/
theorem hasHalf_intercalate {separator : WideText} (h : separator.hasHalf = false)
    (texts : List WideText) : (intercalate separator texts).hasHalf = texts.any hasHalf := by
  fun_induction intercalate separator texts with
  | case1 => simp
  | case2 text => simp
  | case3 text next rest ih => simp [ih, h]

/-- Characters show as they are. -/
theorem shownChars_map_toNat (cs : List Char) : shownChars (cs.map Char.toNat) = cs := by
  induction cs with
  | nil => rfl
  | cons c rest ih =>
    cases rest with
    | nil => simp [shownChars, charAt_toNat]
    | cons next others =>
      simp only [List.map_cons] at ih ⊢
      simp [shownChars, isHighHalf_toNat, charAt_toNat, ih]

/-- A text without halves shows as itself. -/
@[simp]
theorem shown_ofString (s : String) : (ofString s).shown = s := by
  simp [shown, ofString, ofChars, shownChars_map_toNat]

end WideText

end MachineRbi
