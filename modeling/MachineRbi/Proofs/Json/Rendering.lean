import MachineRbi.Console
import MachineRbi.Proofs.CommandLine.Streams
import MachineRbi.Proofs.Json.Grammar
import MachineRbi.Proofs.Text.Hex

/-!
# Written documents are texts of themselves

The text that is written for a document is, by the grammar, a text of the document with the halves
of its pairs joined (`spells_renderAt`): an escape names a UTF-16 unit, so two halves that stand one
directly before the other are written just as the code point that they make. A stream takes the text
as it is, because no escape of a terminal stands in it (`spellsPadded_printed`).
-/

namespace MachineRbi.Json

/-! ## Joined documents -/

mutual

/-- A document where the halves of each pair make one code point in every text. -/
def joined : Json → Json
  | .null => .null
  | .bool value => .bool value
  | .str text => .str text.joined
  | .arr items => .arr (joinedItems items)
  | .obj fields => .obj (joinedFields fields)

/-- The items of an array, joined. -/
def joinedItems : List Json → List Json
  | [] => []
  | item :: rest => item.joined :: joinedItems rest

/-- The fields of an object with their values joined. A name has no halves to join. -/
def joinedFields : List (String × Json) → List (String × Json)
  | [] => []
  | (name, value) :: rest => (name, value.joined) :: joinedFields rest

end

/-- The items of a joined array are its items, each joined. -/
theorem joinedItems_eq_map (items : List Json) : joinedItems items = items.map joined := by
  induction items with
  | nil => rfl
  | cons item rest ih => rw [joinedItems, ih, List.map_cons]

/-! ## Texts in quotes -/

variable {codes others : List Nat} {cs more : List Char}

/-- Spellings after each other spell the code points after each other. -/
theorem SpellsCodes.append (h : SpellsCodes codes cs) (hmore : SpellsCodes others more) :
    SpellsCodes (codes ++ others) (cs ++ more) := by
  induction h with
  | nil => exact hmore
  | plain hplain hrest ih => exact .plain hplain ih
  | short hshort hrest ih => exact .short hshort ih
  | unit hunit hrest ih => exact .unit hunit ih

/-- The escape of a unit spells it. -/
theorem spellsCodes_escapeUnit {unit : Nat} (h : unit < 0x10000) :
    SpellsCodes [unit] (escapeUnit unit) := by
  obtain ⟨a, b, c, d, hdigits, hnumber⟩ := Text.exists_hexDigits_four h
  rw [escapeUnit, hdigits]
  exact .unit hnumber .nil

/-- The written form of a character spells its units. -/
theorem spellsCodes_escapeChar (c : Char) :
    SpellsCodes (WideText.units c.toNat) (escapeChar c) := by
  have hshort : ∀ {sign : Char} {code : Nat}, shortEscape? sign = some code →
      SpellsCodes [code] ['\\', sign] := fun h => .short h .nil
  unfold escapeChar
  split
  case h_8 hquote hslash _ _ _ _ _ =>
    dsimp only
    split
    next hprintable =>
      have hplain : isPlain c = true := by
        simp_all [isPlain]
      have hsmall : c.toNat < 0x10000 := by
        simp only [Bool.and_eq_true, decide_eq_true_eq] at hprintable
        omega
      rw [WideText.units, if_pos hsmall]
      exact .plain hplain .nil
    next =>
      split
      next hsmall =>
        rw [WideText.units, if_pos hsmall]
        exact spellsCodes_escapeUnit hsmall
      next hlarge =>
        have hlast : c.toNat < 0x110000 :=
          c.valid.elim (fun h => Nat.lt_trans h (by decide)) And.right
        rw [WideText.units, if_neg hlarge]
        exact (spellsCodes_escapeUnit (by omega)).append (spellsCodes_escapeUnit (by omega))
  all_goals exact hshort rfl

/-- The written form of a code point spells its units. -/
theorem spellsCodes_escapePoint {point : Nat} (h : point < 0x110000) :
    SpellsCodes (WideText.units point) (escapePoint point) := by
  unfold escapePoint
  split
  next hvalid =>
    have hpoint : (Char.ofNat point).toNat = point := by
      rw [Char.ofNat, dif_pos hvalid]
      rfl
    have hchar := spellsCodes_escapeChar (Char.ofNat point)
    rwa [hpoint] at hchar
  next hinvalid =>
    have hsmall : point < 0x10000 := by
      simp only [Nat.isValidChar] at hinvalid
      omega
    rw [WideText.units, if_pos hsmall]
    exact spellsCodes_escapeUnit hsmall

/-- The written forms of code points spell their units. -/
theorem spellsCodes_flatMap {points : List Nat} (h : ∀ point ∈ points, point < 0x110000) :
    SpellsCodes (points.flatMap WideText.units) (points.flatMap escapePoint) := by
  induction points with
  | nil => exact .nil
  | cons point rest ih =>
      rw [List.forall_mem_cons] at h
      exact (spellsCodes_escapePoint h.1).append (ih h.2)

/-- A text in quotes spells the text with its halves joined. -/
theorem spellsText_quoted (text : WideText) : SpellsText text.joined (quoted text).toList := by
  rw [quoted, String.toList_ofList]
  refine .quotes (spellsCodes_flatMap text.bounded) ?_
  exact (WideText.joinPairs_flatMap_units text.bounded).symm

/-- A text of characters in quotes spells the text. -/
theorem spellsText_quoted_ofString (s : String) : SpellsText s (quoted s).toList := by
  simpa using spellsText_quoted s

/-! ## Lines -/

/-- Elements with commas between them, each behind some blanks, and more blanks at the end. -/
def laidOut (before after : List Char) : List (List Char) → List Char
  | [] => []
  | [element] => before ++ element ++ after
  | element :: rest => before ++ element ++ ',' :: laidOut before after rest

/-- A new line with its indentation. -/
def newLine (level : Nat) : List Char :=
  '\n' :: (indent level).toList

/-- Nothing is a gap. -/
theorem isGap_nil : IsGap [] :=
  List.forall_mem_nil _

/-- A blank is a gap. -/
theorem isGap_blank : IsGap [' '] := by
  simp [IsGap, isBlank]

/-- A new line is a gap. -/
theorem isGap_newLine (level : Nat) : IsGap (newLine level) := by
  intro c hmem
  rw [newLine, indent, String.toList_ofList, List.mem_cons] at hmem
  rcases hmem with rfl | hmem
  · decide
  · rw [List.eq_of_mem_replicate hmem]
    decide

/-- Indented elements with commas and line ends between them are laid out behind a line end. -/
theorem laidOut_newLine (level : Nat) (after : List Char) (first : String) (rest : List String) :
    laidOut (newLine level) after ((first :: rest).map String.toList) =
      '\n' :: (",\n".intercalate ((first :: rest).map (indent level ++ ·))).toList ++ after := by
  induction rest generalizing first with
  | nil => simp [laidOut, newLine]
  | cons next rest ih =>
      have hrest := ih next
      rw [List.map_cons] at hrest ⊢
      rw [List.map_cons, laidOut, hrest, List.map_cons, List.map_cons, List.map_cons,
        String.intercalate_cons_cons]
      · simp [newLine]
      · exact List.cons_ne_nil _ _

/-- Brackets without elements stand side by side. -/
theorem toList_enclose_nil (opening closing : String) (level : Nat) :
    (enclose opening closing level []).toList = opening.toList ++ closing.toList :=
  String.toList_append

/-- Elements between brackets stand on lines of their own. -/
theorem toList_enclose (opening closing : String) (level : Nat) (first : String)
    (rest : List String) :
    (enclose opening closing level (first :: rest)).toList =
      opening.toList ++ laidOut (newLine (level + 1)) (newLine level)
        ((first :: rest).map String.toList) ++ closing.toList := by
  rw [laidOut_newLine]
  simp [enclose, newLine]

/-! ## Documents -/

mutual

/-- The text of a document spells the document with its halves joined. -/
theorem spells_renderAt (level : Nat) :
    ∀ document : Json, Spells document.joined (renderAt level document).toList
  | .null => by
      rw [joined, renderAt]
      exact .null
  | .bool true => by
      rw [joined, renderAt]
      exact .yes
  | .bool false => by
      rw [joined, renderAt]
      exact .no
  | .str text => by
      rw [joined, renderAt]
      exact .str (spellsText_quoted text)
  | .arr [] => by
      rw [joined, joinedItems, renderAt, renderItems, toList_enclose_nil]
      exact .emptyArray isGap_nil
  | .arr (item :: rest) => by
      rw [joined, renderAt, renderItems, toList_enclose]
      exact .array (spellsItems_renderItems (level + 1) (isGap_newLine _) (isGap_newLine _)
        (item :: rest) (List.cons_ne_nil _ _))
  | .obj [] => by
      rw [joined, joinedFields, renderAt, renderFields, toList_enclose_nil]
      exact .emptyObject isGap_nil
  | .obj ((name, value) :: rest) => by
      rw [joined, renderAt, renderFields, toList_enclose]
      exact .object (spellsFields_renderFields (level + 1) (isGap_newLine _) (isGap_newLine _)
        ((name, value) :: rest) (List.cons_ne_nil _ _))

/-- The texts of items that are laid out spell the items. -/
theorem spellsItems_renderItems (level : Nat) {before after : List Char} (hbefore : IsGap before)
    (hafter : IsGap after) : ∀ items : List Json, items ≠ [] →
      SpellsItems (joinedItems items)
        (laidOut before after ((renderItems level items).map String.toList))
  | [], h => absurd rfl h
  | [item], _ => .last (.padded hbefore (spells_renderAt level item) hafter)
  | item :: next :: rest, _ => by
      have hitem := SpellsPadded.padded hbefore (spells_renderAt level item) isGap_nil
      have hrest := spellsItems_renderItems level hbefore hafter (next :: rest)
        (List.cons_ne_nil _ _)
      simpa [laidOut, joinedItems, renderItems] using SpellsItems.more hitem hrest

/-- The texts of fields that are laid out spell the fields. -/
theorem spellsFields_renderFields (level : Nat) {before after : List Char} (hbefore : IsGap before)
    (hafter : IsGap after) : ∀ fields : List (String × Json), fields ≠ [] →
      SpellsFields (joinedFields fields)
        (laidOut before after ((renderFields level fields).map String.toList))
  | [], h => absurd rfl h
  | [(name, value)], _ => by
      have hvalue := SpellsPadded.padded isGap_blank (spells_renderAt level value) hafter
      have hfield := SpellsFields.last hbefore (spellsText_quoted_ofString name) isGap_nil hvalue
      simpa [laidOut, joinedFields, renderFields] using hfield
  | (name, value) :: next :: rest, _ => by
      have hvalue := SpellsPadded.padded isGap_blank (spells_renderAt level value) isGap_nil
      have hrest := spellsFields_renderFields level hbefore hafter (next :: rest)
        (List.cons_ne_nil _ _)
      have hfield := SpellsFields.more hbefore (spellsText_quoted_ofString name) isGap_nil hvalue
        hrest
      simpa [laidOut, joinedFields, renderFields] using hfield

end

/-- What a stream takes for a written document is a text of it with its halves joined. -/
theorem spellsPadded_printed (document : Json) :
    SpellsPadded document.joined (printed document.render).toList := by
  have hdocument := spells_renderAt 0 document
  have hescape : '\x1b' ∉ document.render.toList :=
    fun hmem => absurd (printable_of_spells hdocument _ hmem) (by decide)
  have hend : IsGap ['\n'] := by simp [IsGap, isBlank]
  rw [printed, dropControls_of_not_mem hescape, String.ofList_toList, String.toList_append]
  exact .padded isGap_nil hdocument hend

end MachineRbi.Json
