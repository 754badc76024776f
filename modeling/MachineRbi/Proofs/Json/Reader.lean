import MachineRbi.Proofs.Json.Grammar

/-!
# A reader of JSON

`read?` reads a text by recursive descent. It reads every text of a document as that document
(`isStandardReader_read?`). So the grammar gives no text two documents with distinct names, and the
texts can be read by a program.
-/

namespace MachineRbi

namespace WideText

/-- The numbers as a text, if all of them are code points. -/
def ofPoints? (points : List Nat) : Option WideText :=
  if h : ∀ point ∈ points, point < 0x110000 then some ⟨points, h⟩ else none

/-- The characters of a text, if it has no halves. -/
def string? (text : WideText) : Option String :=
  if ofString text.shown = text then some text.shown else none

/-- The code points of a text make the text. -/
@[simp] theorem ofPoints?_points (text : WideText) : ofPoints? text.points = some text :=
  dif_pos text.bounded

/-- Characters come back from the text of them. -/
@[simp] theorem string?_ofString (s : String) : (ofString s).string? = some s := by
  simp [string?]

end WideText

namespace Json

/-! ## The reader -/

/-- What the characters up to a quote spell, and what follows the quote. -/
def readCodes : List Char → Option (List Nat × List Char)
  | [] => none
  | '"' :: rest => some ([], rest)
  | '\\' :: 'u' :: a :: b :: c :: d :: rest => do
    let code ← Text.hexNumber? [a, b, c, d]
    let (codes, tail) ← readCodes rest
    return (code :: codes, tail)
  | '\\' :: sign :: rest => do
    let code ← shortEscape? sign
    let (codes, tail) ← readCodes rest
    return (code :: codes, tail)
  | c :: rest =>
    if isPlain c then do
      let (codes, tail) ← readCodes rest
      return (c.toNat :: codes, tail)
    else none

/-- Reads a text whose first quote has been read. -/
def readQuoted (cs : List Char) : Option (WideText × List Char) := do
  let (codes, tail) ← readCodes cs
  let text ← WideText.ofPoints? (WideText.joinPairs codes)
  return (text, tail)

/-- The characters from the first one that is no blank. -/
def skipGap (cs : List Char) : List Char :=
  cs.dropWhile isBlank

/-- Reads what may have blanks before it. -/
def readPadded {α : Type} (read : List Char → Option (α × List Char)) (cs : List Char) :
    Option (α × List Char) :=
  read (skipGap cs)

/-- Reads the name of a field and its value. -/
def readField (readValue : List Char → Option (Json × List Char)) :
    List Char → Option ((String × Json) × List Char)
  | '"' :: cs => do
    let (text, rest) ← readQuoted cs
    let name ← text.string?
    match skipGap rest with
    | ':' :: rest =>
      let (value, tail) ← readPadded readValue rest
      return ((name, value), tail)
    | _ => none
  | _ => none

/-- Reads parts with commas between them up to the closing bracket. -/
def readParts {α : Type} (read : List Char → Option (α × List Char)) (closing : Char) :
    Nat → List Char → Option (List α × List Char)
  | 0, _ => none
  | fuel + 1, cs => do
    let (part, rest) ← readPadded read cs
    match skipGap rest with
    | [] => none
    | c :: rest =>
      if c = closing then some ([part], rest)
      else if c = ',' then do
        let (parts, tail) ← readParts read closing fuel rest
        return (part :: parts, tail)
      else none

/-- Reads what stands between brackets, of which the opening one has been read. -/
def readBody {α : Type} (read : List Char → Option (α × List Char)) (closing : Char) (fuel : Nat)
    (cs : List Char) : Option (List α × List Char) :=
  match skipGap cs with
  | [] => none
  | c :: rest => if c = closing then some ([], rest) else readParts read closing fuel cs

/-- Reads a document. The fuel bounds its length. -/
def readValue : Nat → List Char → Option (Json × List Char)
  | 0, _ => none
  | _ + 1, 'n' :: 'u' :: 'l' :: 'l' :: rest => some (.null, rest)
  | _ + 1, 't' :: 'r' :: 'u' :: 'e' :: rest => some (.bool true, rest)
  | _ + 1, 'f' :: 'a' :: 'l' :: 's' :: 'e' :: rest => some (.bool false, rest)
  | _ + 1, '"' :: rest => (readQuoted rest).map fun (text, tail) => (.str text, tail)
  | fuel + 1, '[' :: rest =>
    (readBody (readValue fuel) ']' fuel rest).map fun (items, tail) => (.arr items, tail)
  | fuel + 1, '\x7b' :: rest =>
    (readBody (readField (readValue fuel)) '\x7d' fuel rest).map
      fun (fields, tail) => (.obj fields, tail)
  | _ + 1, _ => none

/-- Reads a text as a document. -/
def read? (text : String) : Option Json :=
  match readPadded (readValue text.length) text.toList with
  | some (document, rest) => if (skipGap rest).isEmpty then some document else none
  | none => none

/-! ## Texts in quotes -/

variable {text : WideText} {codes : List Nat} {cs gap : List Char}

/-- Reading up to the quote gives what the characters before it spell. -/
theorem SpellsCodes.readCodes_append (h : SpellsCodes codes cs) (tail : List Char) :
    readCodes (cs ++ '"' :: tail) = some (codes, tail) := by
  induction h with
  | nil => rfl
  | @plain c codes cs hplain hrest ih =>
      have hquote : c ≠ '"' := by
        rintro rfl
        cases hplain
      have hslash : c ≠ '\\' := by
        rintro rfl
        cases hplain
      rw [List.cons_append, readCodes, if_pos hplain, ih]
      · rfl
      · exact hquote
      all_goals
        intros
        exact hslash ‹_›
  | @short sign code codes cs hshort hrest ih =>
      have hsign : sign ≠ 'u' := by
        rintro rfl
        cases hshort
      simp [readCodes, hsign, hshort, ih]
  | unit hunit hrest ih => simp [readCodes, hunit, ih]

/-- Reading behind the quote gives the text that stands between the quotes. -/
theorem SpellsText.exists_readQuoted (h : SpellsText text cs) :
    ∃ inner, cs = '"' :: inner ∧
      ∀ tail, readQuoted (inner ++ tail) = some (text, tail) := by
  cases h with
  | @quotes codes cs hcodes hjoin =>
      refine ⟨cs ++ ['"'], rfl, fun tail => ?_⟩
      have hread := hcodes.readCodes_append tail
      simp [readQuoted, hread, ← hjoin]

/-! ## Blanks -/

/-- A character that a document starts with. -/
def isStart (c : Char) : Bool :=
  c = 'n' || c = 't' || c = 'f' || c = '"' || c = '[' || c = '\x7b'

/-- The blanks of a gap are skipped. -/
theorem IsGap.skipGap_append (h : IsGap gap) (rest : List Char) :
    skipGap (gap ++ rest) = skipGap rest :=
  List.dropWhile_append_of_pos h

/-- A character that is no blank is not skipped. -/
theorem skipGap_cons {c : Char} (h : isBlank c = false) (rest : List Char) :
    skipGap (c :: rest) = c :: rest := by
  simp [skipGap, h]

/-- No document starts with a blank. -/
theorem isBlank_of_isStart {c : Char} (h : isStart c = true) : isBlank c = false := by
  simp only [isStart, Bool.or_eq_true, decide_eq_true_eq] at h
  rcases h with ((((rfl | rfl) | rfl) | rfl) | rfl) | rfl <;> decide

/-- The first character of a document. -/
theorem Spells.exists_start {document : Json} (h : Spells document cs) :
    ∃ c rest, cs = c :: rest ∧ isStart c = true := by
  cases h with
  | str htext =>
      obtain ⟨inner, rfl, -⟩ := htext.exists_readQuoted
      exact ⟨'"', inner, rfl, by decide⟩
  | _ => exact ⟨_, _, rfl, by decide⟩

/-- Behind blanks, the characters start as a document does. -/
def StartsPadded (cs : List Char) : Prop :=
  ∃ gap c rest, IsGap gap ∧ isStart c = true ∧ cs = gap ++ c :: rest

/-- A document with blanks around it starts as a document behind blanks. -/
theorem SpellsPadded.startsPadded {document : Json} (h : SpellsPadded document cs) :
    StartsPadded cs := by
  cases h with
  | @padded _ before inner after hbefore hdocument hafter =>
      obtain ⟨c, rest, rfl, hstart⟩ := hdocument.exists_start
      exact ⟨before, c, rest ++ after, hbefore, hstart, by simp⟩

/-- What starts as a document still does with more behind it. -/
theorem StartsPadded.append (h : StartsPadded cs) (tail : List Char) :
    StartsPadded (cs ++ tail) := by
  obtain ⟨gap, c, rest, hgap, hstart, rfl⟩ := h
  exact ⟨gap, c, rest ++ tail, hgap, hstart, by simp⟩

/-- Items start as a document does. -/
theorem SpellsItems.startsPadded {items : List Json} (h : SpellsItems items cs) :
    StartsPadded cs := by
  cases h with
  | last hitem => exact hitem.startsPadded
  | more hitem hrest => exact hitem.startsPadded.append _

/-- Fields start with the quote of a name. -/
theorem SpellsFields.startsPadded {fields : List (String × Json)} (h : SpellsFields fields cs) :
    StartsPadded cs := by
  have hfield : ∀ {name : WideText} {before key : List Char}, IsGap before →
      SpellsText name key → ∀ tail, StartsPadded (before ++ key ++ tail) := by
    intro name before key hbefore hname tail
    obtain ⟨inner, rfl, -⟩ := hname.exists_readQuoted
    exact ⟨before, '"', inner ++ tail, hbefore, by decide, by simp⟩
  cases h with
  | last hbefore hname hafter hvalue =>
      rw [List.append_assoc]
      exact hfield hbefore hname _
  | more hbefore hname hafter hvalue hrest =>
      rw [List.append_assoc, List.append_assoc]
      exact hfield hbefore hname _

/-! ## Parts -/

section Parts

variable {α : Type} {read : List Char → Option (α × List Char)} {closing : Char} {part : α}
variable {parts : List α} {others : List Char}

/-- The characters are read as the part, whatever comes behind them. Blanks may be left over. -/
def Reads (read : List Char → Option (α × List Char)) (part : α) (cs : List Char) : Prop :=
  ∀ tail, ∃ rest, readPadded read (cs ++ tail) = some (part, rest) ∧ skipGap rest = skipGap tail

/-- The last part is read up to the closing bracket. -/
theorem readParts_last (hclosing : isBlank closing = false) (h : Reads read part cs) (fuel : Nat)
    (tail : List Char) :
    readParts read closing (fuel + 1) (cs ++ closing :: tail) = some ([part], tail) := by
  obtain ⟨rest, hread, hskip⟩ := h (closing :: tail)
  rw [skipGap_cons hclosing] at hskip
  simp [readParts, hread, hskip]

/-- A part with a comma behind it is read before the others. -/
theorem readParts_more (hcomma : closing ≠ ',') (h : Reads read part cs) {fuel : Nat}
    {tail : List Char} (hothers : readParts read closing fuel others = some (parts, tail)) :
    readParts read closing (fuel + 1) (cs ++ ',' :: others) = some (part :: parts, tail) := by
  obtain ⟨rest, hread, hskip⟩ := h (',' :: others)
  rw [skipGap_cons (by decide)] at hskip
  simp [readParts, hread, hskip, hcomma.symm, hothers]

/-- Nothing stands between brackets with blanks alone between them. -/
theorem readBody_gap (hclosing : isBlank closing = false) (hgap : IsGap gap) (fuel : Nat)
    (tail : List Char) : readBody read closing fuel (gap ++ closing :: tail) = some ([], tail) := by
  rw [readBody, hgap.skipGap_append, skipGap_cons hclosing]
  exact if_pos rfl

/-- What starts as a document is read as parts. -/
theorem readBody_of_startsPadded (hclosing : isStart closing = false) (h : StartsPadded cs)
    (fuel : Nat) : readBody read closing fuel cs = readParts read closing fuel cs := by
  obtain ⟨gap, c, rest, hgap, hstart, rfl⟩ := h
  have hne : c ≠ closing := by
    rintro rfl
    exact absurd (hstart.symm.trans hclosing) (by decide)
  rw [readBody, hgap.skipGap_append, skipGap_cons (isBlank_of_isStart hstart)]
  exact if_neg hne

end Parts

/-! ## Documents -/

/-- A field is read as its name and its value. -/
theorem reads_field {readValue : List Char → Option (Json × List Char)} {name : String}
    {value : Json} {before key after : List Char} (hbefore : IsGap before)
    (hname : SpellsText name key) (hafter : IsGap after) (hvalue : Reads readValue value cs) :
    Reads (readField readValue) (name, value) (before ++ key ++ after ++ ':' :: cs) := by
  intro tail
  obtain ⟨inner, rfl, hquoted⟩ := hname.exists_readQuoted
  obtain ⟨rest, hread, hskip⟩ := hvalue tail
  refine ⟨rest, ?_, hskip⟩
  have hcolon : skipGap (after ++ ':' :: (cs ++ tail)) = ':' :: (cs ++ tail) := by
    rw [hafter.skipGap_append, skipGap_cons (by decide)]
  simp only [List.append_assoc, List.cons_append]
  rw [readPadded, hbefore.skipGap_append, skipGap_cons (by decide)]
  simp [readField, hquoted, hcolon, hread]

mutual

/-- With enough fuel, the text of a document is read as the document. -/
theorem readValue_of_spells {document : Json} {cs : List Char} :
    Spells document cs → ∀ {fuel : Nat}, cs.length ≤ fuel → ∀ tail,
      readValue fuel (cs ++ tail) = some (document, tail)
  | .null, _ + 1, _, _ | .yes, _ + 1, _, _ | .no, _ + 1, _, _ => rfl
  | .str htext, fuel, hfuel, tail => by
      obtain ⟨inner, rfl, hread⟩ := htext.exists_readQuoted
      obtain ⟨fuel, rfl⟩ := Nat.exists_eq_succ_of_ne_zero (Nat.ne_zero_of_lt hfuel)
      rw [List.cons_append, readValue, hread]
      rfl
  | .emptyArray hgap, fuel + 1, _, tail => by
      simp only [List.cons_append, List.append_assoc, List.nil_append]
      rw [readValue, readBody_gap (by decide) hgap]
      rfl
  | .emptyObject hgap, fuel + 1, _, tail => by
      simp only [List.cons_append, List.append_assoc, List.nil_append]
      rw [readValue, readBody_gap (by decide) hgap]
      rfl
  | @Spells.array _ inner hitems, fuel + 1, hfuel, tail => by
      have hinner : inner.length < fuel := by
        simp only [List.length_append, List.length_cons] at hfuel
        omega
      have hstart := hitems.startsPadded.append (']' :: tail)
      simp only [List.cons_append, List.append_assoc, List.nil_append]
      rw [readValue, readBody_of_startsPadded (by decide) hstart,
        readParts_of_spellsItems hitems hinner.le hinner]
      rfl
  | @Spells.object _ inner hfields, fuel + 1, hfuel, tail => by
      have hinner : inner.length < fuel := by
        simp only [List.length_append, List.length_cons] at hfuel
        omega
      have hstart := hfields.startsPadded.append ('\x7d' :: tail)
      simp only [List.cons_append, List.append_assoc, List.nil_append]
      rw [readValue, readBody_of_startsPadded (by decide) hstart,
        readParts_of_spellsFields hfields hinner.le hinner]
      rfl

/-- With enough fuel, a text with blanks around it is read as its document. -/
theorem reads_of_spellsPadded {document : Json} {cs : List Char} :
    SpellsPadded document cs → ∀ {fuel : Nat}, cs.length ≤ fuel →
      Reads (readValue fuel) document cs
  | @SpellsPadded.padded _ before inner after hbefore h hafter, fuel, hfuel => by
      intro tail
      have hinner : inner.length ≤ fuel := by
        simp only [List.length_append] at hfuel
        omega
      have hread := readValue_of_spells h hinner (after ++ tail)
      obtain ⟨c, rest, rfl, hstart⟩ := h.exists_start
      have hskip : skipGap (before ++ (c :: rest) ++ after ++ tail) =
          c :: rest ++ (after ++ tail) := by
        rw [List.append_assoc, List.append_assoc, hbefore.skipGap_append, List.cons_append,
          skipGap_cons (isBlank_of_isStart hstart)]
      exact ⟨after ++ tail, by rw [readPadded, hskip, hread], hafter.skipGap_append tail⟩

/-- With enough fuel, the texts of items are read as the items. -/
theorem readParts_of_spellsItems {items : List Json} {cs : List Char} :
    SpellsItems items cs → ∀ {depth fuel : Nat}, cs.length ≤ depth → cs.length < fuel → ∀ tail,
      readParts (readValue depth) ']' fuel (cs ++ ']' :: tail) = some (items, tail)
  | .last hitem, depth, fuel + 1, hdepth, _, tail =>
      readParts_last (by decide) (reads_of_spellsPadded hitem hdepth) fuel tail
  | @SpellsItems.more item items first others hitem hrest, depth, fuel + 1, hdepth, hfuel,
      tail => by
      simp only [List.length_append, List.length_cons] at hdepth hfuel
      have hfirst := reads_of_spellsPadded hitem (show first.length ≤ depth by omega)
      have hothers := readParts_of_spellsItems hrest (show others.length ≤ depth by omega)
        (show others.length < fuel by omega) tail
      rw [List.append_assoc, List.cons_append]
      exact readParts_more (by decide) hfirst hothers

/-- With enough fuel, the texts of fields are read as the fields. -/
theorem readParts_of_spellsFields {fields : List (String × Json)} {cs : List Char} :
    SpellsFields fields cs → ∀ {depth fuel : Nat}, cs.length ≤ depth → cs.length < fuel → ∀ tail,
      readParts (readField (readValue depth)) '\x7d' fuel (cs ++ '\x7d' :: tail) =
        some (fields, tail)
  | @SpellsFields.last name value before key after cs hbefore hname hafter hvalue, depth, fuel + 1,
      hdepth, _, tail => by
      simp only [List.length_append, List.length_cons] at hdepth
      have hread := reads_of_spellsPadded hvalue (show cs.length ≤ depth by omega)
      exact readParts_last (by decide) (reads_field hbefore hname hafter hread) fuel tail
  | @SpellsFields.more name value fields before key after cs others hbefore hname hafter hvalue
      hrest, depth, fuel + 1, hdepth, hfuel, tail => by
      simp only [List.length_append, List.length_cons] at hdepth hfuel
      have hread := reads_of_spellsPadded hvalue (show cs.length ≤ depth by omega)
      have hothers := readParts_of_spellsFields hrest (show others.length ≤ depth by omega)
        (show others.length < fuel by omega) tail
      rw [List.append_assoc, List.cons_append]
      exact readParts_more (by decide) (reads_field hbefore hname hafter hread) hothers

end

/-- The reader reads every text of a document as the document. -/
theorem isStandardReader_read? : IsStandardReader read? := by
  intro document text _ hspells
  obtain ⟨rest, hread, hskip⟩ := reads_of_spellsPadded hspells (Nat.le_refl _) []
  rw [List.append_nil] at hread
  rw [read?, ← String.length_toList, hread]
  exact if_pos (by rw [hskip]; rfl)

end Json

end MachineRbi
