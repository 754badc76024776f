import MachineRbi.Json
import MachineRbi.Proofs.Text.Pairs

/-!
# The grammar of JSON

`Spells document cs` says that the characters are a text of the document: texts in quotes with
escapes for UTF-16 units, arrays and objects with commas between their parts, and blanks where they
may stand. Numbers are left out, because the documents of this library have none. A standard reader
reads every such text as its document (`IsStandardReader`); of the objects with a repeated name
nothing is asked. No control character but a blank stands in a text (`printable_of_spellsPadded`).
-/

namespace MachineRbi.Json

/-! ## Texts in quotes -/

/-- A character that stands for itself between quotes. -/
def isPlain (c : Char) : Bool :=
  32 ≤ c.toNat && c ≠ '"' && c ≠ '\\'

/-- What a letter or sign behind a backslash stands for. -/
def shortEscape? : Char → Option Nat
  | '"' => some 34
  | '\\' => some 92
  | '/' => some 47
  | 'b' => some 8
  | 'f' => some 12
  | 'n' => some 10
  | 'r' => some 13
  | 't' => some 9
  | _ => none

/-- The characters between quotes spell code points, where an escape spells a UTF-16 unit. -/
inductive SpellsCodes : List Nat → List Char → Prop
  | nil : SpellsCodes [] []
  | plain {c : Char} {codes : List Nat} {cs : List Char} (h : isPlain c = true)
      (hrest : SpellsCodes codes cs) : SpellsCodes (c.toNat :: codes) (c :: cs)
  | short {c : Char} {code : Nat} {codes : List Nat} {cs : List Char}
      (h : shortEscape? c = some code) (hrest : SpellsCodes codes cs) :
      SpellsCodes (code :: codes) ('\\' :: c :: cs)
  | unit {a b c d : Char} {code : Nat} {codes : List Nat} {cs : List Char}
      (h : Text.hexNumber? [a, b, c, d] = some code) (hrest : SpellsCodes codes cs) :
      SpellsCodes (code :: codes) ('\\' :: 'u' :: a :: b :: c :: d :: cs)

/-- The characters are quotes around a spelling of the text, in which a pair of halves is one code
point. -/
inductive SpellsText : WideText → List Char → Prop
  | quotes {text : WideText} {codes : List Nat} {cs : List Char} (h : SpellsCodes codes cs)
      (hjoin : text.points = WideText.joinPairs codes) : SpellsText text ('"' :: cs ++ ['"'])

/-! ## Documents -/

/-- A character that may stand between the parts of a document. -/
def isBlank (c : Char) : Bool :=
  c = ' ' || c = '\t' || c = '\n' || c = '\r'

/-- Blanks only. -/
def IsGap (cs : List Char) : Prop :=
  ∀ c ∈ cs, isBlank c = true

mutual

/-- The characters are a text of the document. -/
inductive Spells : Json → List Char → Prop
  | null : Spells .null ['n', 'u', 'l', 'l']
  | yes : Spells (.bool true) ['t', 'r', 'u', 'e']
  | no : Spells (.bool false) ['f', 'a', 'l', 's', 'e']
  | str {text : WideText} {cs : List Char} (h : SpellsText text cs) : Spells (.str text) cs
  | emptyArray {gap : List Char} (h : IsGap gap) : Spells (.arr []) ('[' :: gap ++ [']'])
  | array {items : List Json} {cs : List Char} (h : SpellsItems items cs) :
      Spells (.arr items) ('[' :: cs ++ [']'])
  | emptyObject {gap : List Char} (h : IsGap gap) :
      Spells (.obj []) ('\x7b' :: gap ++ ['\x7d'])
  | object {fields : List (String × Json)} {cs : List Char} (h : SpellsFields fields cs) :
      Spells (.obj fields) ('\x7b' :: cs ++ ['\x7d'])

/-- The characters are a text of the document with blanks around it. -/
inductive SpellsPadded : Json → List Char → Prop
  | padded {document : Json} {before cs after : List Char} (hbefore : IsGap before)
      (h : Spells document cs) (hafter : IsGap after) :
      SpellsPadded document (before ++ cs ++ after)

/-- The characters are texts of the items, of which there are some, with commas between them. -/
inductive SpellsItems : List Json → List Char → Prop
  | last {item : Json} {cs : List Char} (h : SpellsPadded item cs) : SpellsItems [item] cs
  | more {item : Json} {items : List Json} {first others : List Char}
      (h : SpellsPadded item first) (hrest : SpellsItems items others) :
      SpellsItems (item :: items) (first ++ ',' :: others)

/-- The characters are texts of the fields, of which there are some, with commas between them. -/
inductive SpellsFields : List (String × Json) → List Char → Prop
  | last {name : String} {value : Json} {before key after cs : List Char} (hbefore : IsGap before)
      (hname : SpellsText name key) (hafter : IsGap after) (h : SpellsPadded value cs) :
      SpellsFields [(name, value)] (before ++ key ++ after ++ ':' :: cs)
  | more {name : String} {value : Json} {fields : List (String × Json)}
      {before key after cs others : List Char} (hbefore : IsGap before)
      (hname : SpellsText name key) (hafter : IsGap after) (h : SpellsPadded value cs)
      (hrest : SpellsFields fields others) :
      SpellsFields ((name, value) :: fields) (before ++ key ++ after ++ ':' :: cs ++ ',' :: others)

end

/-- No object in the document has two fields of the same name. -/
inductive HasDistinctNames : Json → Prop
  | null : HasDistinctNames .null
  | bool (value : Bool) : HasDistinctNames (.bool value)
  | str (text : WideText) : HasDistinctNames (.str text)
  | arr {items : List Json} (h : ∀ item ∈ items, HasDistinctNames item) :
      HasDistinctNames (.arr items)
  | obj {fields : List (String × Json)} (hnames : (fields.map Prod.fst).Nodup)
      (h : ∀ field ∈ fields, HasDistinctNames field.2) : HasDistinctNames (.obj fields)

/-- The reader reads every text of a document with distinct names as that document. -/
def IsStandardReader (read : String → Option Json) : Prop :=
  ∀ document text, document.HasDistinctNames → SpellsPadded document text.toList →
    read text = some document

/-! ## Characters -/

/-- The character is no control character, or it is a blank. -/
def isPrintable (c : Char) : Bool :=
  32 ≤ c.toNat || isBlank c

variable {text : WideText} {codes : List Nat}

/-- Hexadecimal digits are printable. -/
theorem isPrintable_of_hexValue? {c : Char} {value : Nat} (h : Text.hexValue? c = some value) :
    isPrintable c = true := by
  have hleast : '0' ≤ c := by
    unfold Text.hexValue? at h
    split at h
    next hdigit => exact (by simpa using hdigit : '0' ≤ c ∧ c ≤ '9').1
    next =>
      split at h
      next hlower =>
        exact Char.le_trans (by decide) (by simpa using hlower : 'a' ≤ c ∧ c ≤ 'f').1
      next =>
        split at h
        next hupper =>
          exact Char.le_trans (by decide) (by simpa using hupper : 'A' ≤ c ∧ c ≤ 'F').1
        next => cases h
  have hnumber : '0'.toNat ≤ c.toNat := hleast
  simp only [isPrintable, Bool.or_eq_true, decide_eq_true_eq]
  exact .inl (Nat.le_trans (by decide) hnumber)

/-- Digits that are read as a number are printable. -/
theorem printable_of_hexNumber? {digits : List Char} {number : Nat}
    (h : Text.hexNumber? digits = some number) : ∀ c ∈ digits, isPrintable c = true := by
  unfold Text.hexNumber? at h
  generalize 0 = start at h
  induction digits generalizing start with
  | nil => simp
  | cons c rest ih =>
      rw [List.foldlM_cons] at h
      obtain ⟨next, hnext, hrest⟩ := Option.bind_eq_some_iff.mp h
      obtain ⟨value, hvalue, -⟩ := Option.map_eq_some_iff.mp hnext
      exact List.forall_mem_cons.mpr ⟨isPrintable_of_hexValue? hvalue, ih next hrest⟩

/-- The characters between quotes are printable. -/
theorem SpellsCodes.printable {cs : List Char} (h : SpellsCodes codes cs) :
    ∀ c ∈ cs, isPrintable c = true := by
  induction h with
  | nil => simp
  | plain hplain hrest ih =>
      refine List.forall_mem_cons.mpr ⟨?_, ih⟩
      simp only [isPlain, Bool.and_eq_true] at hplain
      simp [isPrintable, hplain.1.1]
  | short hshort hrest ih =>
      refine List.forall_mem_cons.mpr ⟨by decide, List.forall_mem_cons.mpr ⟨?_, ih⟩⟩
      unfold shortEscape? at hshort
      split at hshort <;> first | decide | cases hshort
  | unit hunit hrest ih =>
      have hdigits := printable_of_hexNumber? hunit
      simp only [List.forall_mem_cons] at hdigits ⊢
      exact ⟨by decide, by decide, hdigits.1, hdigits.2.1, hdigits.2.2.1, hdigits.2.2.2.1, ih⟩

/-- Quotes around characters are printable. -/
theorem SpellsText.printable {cs : List Char} (h : SpellsText text cs) :
    ∀ c ∈ cs, isPrintable c = true := by
  cases h with
  | quotes hcodes =>
      have hinner := hcodes.printable
      simp only [List.cons_append, List.forall_mem_cons, List.forall_mem_append]
      exact ⟨by decide, hinner, by decide, by simp⟩

/-- Blanks are printable. -/
theorem IsGap.printable {cs : List Char} (h : IsGap cs) : ∀ c ∈ cs, isPrintable c = true := by
  intro c hmem
  simp [isPrintable, h c hmem]

mutual

/-- The text of a document is printable. -/
theorem printable_of_spells {document : Json} {cs : List Char} :
    Spells document cs → ∀ c ∈ cs, isPrintable c = true
  | .null | .yes | .no => by simp [isPrintable]
  | .str htext => htext.printable
  | .emptyArray hgap | .emptyObject hgap => by
      have hinner := hgap.printable
      simp only [List.cons_append, List.forall_mem_cons, List.forall_mem_append]
      exact ⟨by decide, hinner, by decide, by simp⟩
  | .array hitems => by
      have hinner := printable_of_spellsItems hitems
      simp only [List.cons_append, List.forall_mem_cons, List.forall_mem_append]
      exact ⟨by decide, hinner, by decide, by simp⟩
  | .object hfields => by
      have hinner := printable_of_spellsFields hfields
      simp only [List.cons_append, List.forall_mem_cons, List.forall_mem_append]
      exact ⟨by decide, hinner, by decide, by simp⟩

/-- A text with blanks around it is printable. -/
theorem printable_of_spellsPadded {document : Json} {cs : List Char} :
    SpellsPadded document cs → ∀ c ∈ cs, isPrintable c = true
  | .padded hbefore hdocument hafter => by
      simp only [List.forall_mem_append]
      exact ⟨⟨hbefore.printable, printable_of_spells hdocument⟩, hafter.printable⟩

/-- The texts of items are printable. -/
theorem printable_of_spellsItems {items : List Json} {cs : List Char} :
    SpellsItems items cs → ∀ c ∈ cs, isPrintable c = true
  | .last hitem => printable_of_spellsPadded hitem
  | .more hitem hrest => by
      simp only [List.forall_mem_append, List.forall_mem_cons]
      exact ⟨printable_of_spellsPadded hitem, by decide, printable_of_spellsItems hrest⟩

/-- The texts of fields are printable. -/
theorem printable_of_spellsFields {fields : List (String × Json)} {cs : List Char} :
    SpellsFields fields cs → ∀ c ∈ cs, isPrintable c = true
  | .last hbefore hname hafter hvalue => by
      simp only [List.forall_mem_append, List.forall_mem_cons]
      exact ⟨⟨⟨hbefore.printable, hname.printable⟩, hafter.printable⟩, by decide,
        printable_of_spellsPadded hvalue⟩
  | .more hbefore hname hafter hvalue hrest => by
      simp only [List.forall_mem_append, List.forall_mem_cons]
      exact ⟨⟨⟨⟨hbefore.printable, hname.printable⟩, hafter.printable⟩, by decide,
        printable_of_spellsPadded hvalue⟩, by decide, printable_of_spellsFields hrest⟩

end

end MachineRbi.Json
