import MachineRbi.Rbi.Name
import MachineRbi.Proofs.Text.Wide

/-!
# The characters of accepted names

Accepted names are made of a few ASCII characters, and a line break can only be the last one. So
they show as they are, and they hold none of the characters that part the items of an interface
file.
-/

namespace MachineRbi.Rbi

/-- A character of the path of a constant. -/
def isPathPart (c : Char) : Bool :=
  isWordPart c || c = ':'

/-- A line break at the end is all that is ever dropped from it. -/
theorem eq_dropBreak_or (cs : List Char) :
    cs = dropBreak cs ∨ cs = dropBreak cs ++ ['\n'] := by
  unfold dropBreak
  split
  next hlast =>
    obtain ⟨front, rfl⟩ := List.getLast?_eq_some_iff.mp hlast
    exact .inr (by rw [List.dropLast_concat])
  next => exact .inl rfl

/-- A mark at the end is all that is ever dropped from it. -/
theorem eq_dropMark_or (cs : List Char) :
    cs = dropMark cs ∨ ∃ mark, isMark mark = true ∧ cs = dropMark cs ++ [mark] := by
  unfold dropMark endsInMark
  split
  next hlast =>
    obtain ⟨mark, hmark, his⟩ := (Option.any_eq_true _ _).mp hlast
    obtain ⟨front, rfl⟩ := List.getLast?_eq_some_iff.mp hmark
    exact .inr ⟨mark, his, by rw [List.dropLast_concat]⟩
  next => exact .inl rfl

/-- There is always a piece. -/
theorem splitScopes_ne_nil (cs : List Char) : splitScopes cs ≠ [] := by
  fun_induction splitScopes cs <;> simp

/-- The pieces with double colons between them are the text. -/
theorem intercalate_splitScopes (cs : List Char) :
    [':', ':'].intercalate (splitScopes cs) = cs := by
  fun_induction splitScopes cs with
  | case1 rest ih =>
      rw [List.intercalate_cons_of_ne_nil (splitScopes_ne_nil rest), ih]
      rfl
  | case2 c rest _ hsplit ih => exact (splitScopes_ne_nil rest hsplit).elim
  | case3 c rest _ first others hsplit ih =>
      rw [List.intercalate_cons_cons_left, ← hsplit, ih]
  | case4 => rfl

/-- Texts without colons come back from double colons between them. -/
theorem splitScopes_intercalate {parts : List (List Char)} (hnonempty : parts ≠ [])
    (hparts : ∀ part ∈ parts, ':' ∉ part) :
    splitScopes ([':', ':'].intercalate parts) = parts := by
  have hplain : ∀ part rest first others, ':' ∉ part → splitScopes rest = first :: others →
      splitScopes (part ++ rest) = (part ++ first) :: others := by
    intro part rest first others hpart hrest
    induction part with
    | nil => exact hrest
    | cons c cs ih =>
        simp only [List.mem_cons, not_or] at hpart
        rw [List.cons_append, splitScopes, ih hpart.2]
        · rfl
        · rintro later rfl
          exact (hpart.1 rfl).elim
  induction parts with
  | nil => exact (hnonempty rfl).elim
  | cons part rest ih =>
      have hpart := hparts part List.mem_cons_self
      cases rest with
      | nil => simpa using hplain part [] [] [] hpart rfl
      | cons next others =>
          have hrest := ih (by simp) fun other hmem => hparts other (List.mem_cons_of_mem _ hmem)
          rw [List.intercalate_cons_cons, List.append_assoc]
          have hscope : splitScopes ([':', ':'] ++ [':', ':'].intercalate (next :: others)) =
              [] :: next :: others := congrArg ([] :: ·) hrest
          rw [hplain part _ [] (next :: others) hpart hscope, List.append_nil]

/-- The constants of an id, in order. A line break behind the id belongs to the last of them. -/
def constants (name : WideText) : List (List Char) :=
  splitScopes (dropLeadingScope name.chars)

/-- A character of texts with a separator between them is one of the separator or of a text. -/
theorem mem_intercalate {c : Char} {separator : List Char} {texts : List (List Char)}
    (h : c ∈ separator.intercalate texts) : c ∈ separator ∨ ∃ text ∈ texts, c ∈ text := by
  induction texts with
  | nil => cases h
  | cons text rest ih =>
      cases rest with
      | nil =>
          rw [List.intercalate_singleton] at h
          exact .inr ⟨text, List.mem_cons_self, h⟩
      | cons next others =>
          rw [List.intercalate_cons_cons, List.mem_append, List.mem_append] at h
          rcases h with (hmem | hmem) | hmem
          · exact .inr ⟨text, List.mem_cons_self, hmem⟩
          · exact .inl hmem
          · rcases ih hmem with hmem | ⟨other, hother, hmem⟩
            · exact .inl hmem
            · exact .inr ⟨other, List.mem_cons_of_mem _ hother, hmem⟩

/-- What stands in one of the texts stands between the separators. -/
theorem mem_intercalate_of_mem {c : Char} {separator cs : List Char} {texts : List (List Char)}
    (hcs : cs ∈ texts) (hc : c ∈ cs) : c ∈ separator.intercalate texts := by
  induction texts with
  | nil => cases hcs
  | cons first rest ih =>
      cases rest with
      | nil =>
          rw [List.mem_singleton.mp hcs] at hc
          simpa [List.intercalate] using hc
      | cons next rest =>
          rw [List.intercalate_cons_cons, List.mem_append]
          rcases List.mem_cons.mp hcs with rfl | hrest
          · exact .inl (List.mem_append_left _ hc)
          · exact .inr (ih hrest)

/-- An identifier is made of the characters of words. -/
theorem isWordPart_of_isIdentifier {cs : List Char} (h : isIdentifier cs = true) :
    ∀ c ∈ cs, isWordPart c = true := by
  cases cs with
  | nil => simp
  | cons first rest =>
      simp only [isIdentifier, Bool.and_eq_true, List.all_eq_true] at h
      intro c hmem
      rcases List.mem_cons.mp hmem with rfl | hmem
      · simp only [isWordStart, Bool.or_eq_true] at h
        simp only [isWordPart, Char.isAlphanum, Bool.or_eq_true]
        exact h.1.imp .inl id
      · exact h.2 c hmem

/-- A constant is made of the characters of words. -/
theorem isWordPart_of_isConstant {cs : List Char} (h : isConstant cs = true) :
    ∀ c ∈ cs, isWordPart c = true := by
  cases cs with
  | nil => simp
  | cons first rest =>
      simp only [isConstant, Bool.and_eq_true, List.all_eq_true] at h
      intro c hmem
      rcases List.mem_cons.mp hmem with rfl | hmem
      · show (((c.isUpper || c.isLower) || c.isDigit) || decide (c = '_')) = true
        simp [h.1]
      · exact h.2 c hmem

/-- Constants with double colons between them are made of the characters of words and colons. -/
theorem isPathPart_of_isScopedConstant {cs : List Char} (h : isScopedConstant cs = true) :
    ∀ c ∈ cs, isPathPart c = true := by
  have hcolon : isPathPart ':' = true := by decide
  have hrest : ∀ c ∈ dropLeadingScope cs, isPathPart c = true := by
    intro c hmem
    rw [← intercalate_splitScopes (dropLeadingScope cs)] at hmem
    rcases mem_intercalate hmem with hmem | ⟨piece, hpiece, hmem⟩
    · simp only [List.mem_cons, List.not_mem_nil, or_false, or_self] at hmem
      rw [hmem, hcolon]
    · have hconstant := List.all_eq_true.mp h piece hpiece
      simp [isPathPart, isWordPart_of_isConstant hconstant c hmem]
  unfold dropLeadingScope at hrest
  split at hrest
  next rest =>
    intro c hmem
    rcases List.mem_cons.mp hmem with rfl | hmem
    · exact hcolon
    · rcases List.mem_cons.mp hmem with rfl | hmem
      · exact hcolon
      · exact hrest c hmem
  next => exact hrest

/-- An accepted path of a constant is one up to a line break at its end. -/
theorem chars_of_isConstantPath {name : WideText} (h : isConstantPath name = true) :
    ∃ core, isScopedConstant core = true ∧
      (name.chars = core ∨ name.chars = core ++ ['\n']) :=
  ⟨_, h, eq_dropBreak_or name.chars⟩

/-- An accepted name of a method is an identifier, perhaps a mark, and perhaps a line break. -/
theorem chars_of_isMethodName {name : WideText} (h : isMethodName name = true) :
    ∃ word marks breaks, isIdentifier word = true ∧ name.chars = word ++ marks ++ breaks ∧
      (marks = [] ∨ ∃ mark, isMark mark = true ∧ marks = [mark]) ∧
      (breaks = [] ∨ breaks = ['\n']) := by
  -- The line break is dropped first, so a mark stands before it.
  have hname := eq_dropBreak_or name.chars
  rcases eq_dropMark_or (dropBreak name.chars) with hmark | ⟨mark, his, hmark⟩
  · rw [hmark] at hname
    rcases hname with hname | hname
    · exact ⟨_, [], [], h, by simpa using hname, .inl rfl, .inl rfl⟩
    · exact ⟨_, [], ['\n'], h, by simpa using hname, .inl rfl, .inr rfl⟩
  · rw [hmark] at hname
    rcases hname with hname | hname
    · exact ⟨_, [mark], [], h, by simpa using hname, .inr ⟨mark, his, rfl⟩, .inl rfl⟩
    · exact ⟨_, [mark], ['\n'], h, hname, .inr ⟨mark, his, rfl⟩, .inr rfl⟩

/-- No character of a word is a mark or a line break. -/
theorem not_isMark_of_isWordPart {c : Char} (h : isWordPart c = true) :
    isMark c = false ∧ c ≠ '\n' := by
  constructor
  · refine Bool.eq_false_iff.mpr fun hmark => ?_
    simp only [isMark, Bool.or_eq_true, decide_eq_true_eq] at hmark
    rcases hmark with (rfl | rfl) | rfl <;> exact absurd h (by decide)
  · rintro rfl
    exact absurd h (by decide)

/-- What stands before a mark at the end decides about the name of a method. -/
theorem isMethodName_of_mark {name : WideText} {word : List Char} (mark : Char)
    (hmark : isMark mark = true) (hchars : name.chars = word ++ [mark]) :
    isMethodName name = isIdentifier word := by
  have hbreak : mark ≠ '\n' := by
    rintro rfl
    exact absurd hmark (by decide)
  simp [isMethodName, dropBreak, dropMark, endsInMark, hchars, hmark, hbreak]

/-- The characters of a word name a method exactly if they are an identifier. -/
theorem isMethodName_of_word {name : WideText} (h : ∀ c ∈ name.chars, isWordPart c = true) :
    isMethodName name = isIdentifier name.chars := by
  have hbreak : name.chars.getLast? ≠ some '\n' := fun hlast =>
    (not_isMark_of_isWordPart (h _ (List.mem_of_getLast? hlast))).2 rfl
  have hmark : endsInMark name.chars = false := by
    refine Bool.eq_false_iff.mpr fun hends => ?_
    obtain ⟨mark, hlast, his⟩ := (Option.any_eq_true _ _).mp hends
    rw [(not_isMark_of_isWordPart (h mark (List.mem_of_getLast? hlast))).1] at his
    cases his
  rw [isMethodName, dropBreak, if_neg hbreak, dropMark, hmark]
  rfl

/-- An identifier stays one with more characters of words behind it. -/
theorem isIdentifier_append {word tail : List Char} (h : isIdentifier word = true)
    (htail : ∀ c ∈ tail, isWordPart c = true) : isIdentifier (word ++ tail) = true := by
  cases word with
  | nil => cases h
  | cons first rest =>
      simp only [isIdentifier, Bool.and_eq_true, List.all_eq_true] at h
      simp only [List.cons_append, isIdentifier, Bool.and_eq_true, List.all_eq_true,
        List.mem_append]
      exact ⟨h.1, fun c hmem => hmem.elim (h.2 c) (htail c)⟩

/-- What is no part of a path and no line break is not in the accepted path of a constant. -/
theorem not_mem_of_isConstantPath {name : WideText} {c : Char} (h : isConstantPath name = true)
    (hpath : isPathPart c = false) (hbreak : c ≠ '\n') : c ∉ name.chars := by
  obtain ⟨core, hcore, hchars⟩ := chars_of_isConstantPath h
  intro hmem
  have hparts : c ∈ core := by
    rcases hchars with hchars | hchars
    · exact hchars ▸ hmem
    · rw [hchars, List.mem_append, List.mem_singleton] at hmem
      exact hmem.resolve_right hbreak
  rw [isPathPart_of_isScopedConstant hcore c hparts] at hpath
  cases hpath

/-- What is no part of a word, no mark and no line break is not in the accepted name of a
method. -/
theorem not_mem_of_isMethodName {name : WideText} {c : Char} (h : isMethodName name = true)
    (hword : isWordPart c = false) (hmark : isMark c = false) (hbreak : c ≠ '\n') :
    c ∉ name.chars := by
  obtain ⟨word, marks, breaks, hidentifier, hchars, hmarks, hbreaks⟩ := chars_of_isMethodName h
  intro hmem
  rw [hchars, List.mem_append, List.mem_append] at hmem
  rcases hmem with (hmem | hmem) | hmem
  · rw [isWordPart_of_isIdentifier hidentifier c hmem] at hword
    cases hword
  · rcases hmarks with rfl | ⟨mark, his, rfl⟩
    · cases hmem
    · rw [List.mem_singleton.mp hmem, his] at hmark
      cases hmark
  · rcases hbreaks with rfl | rfl
    · cases hmem
    · exact hbreak (List.mem_singleton.mp hmem)

/-- The accepted path of a constant shows as its characters. -/
theorem shown_of_isConstantPath {name : WideText} (h : isConstantPath name = true) :
    name.shown.toList = name.chars :=
  WideText.shown_toList (not_mem_of_isConstantPath h (by decide) (by decide))

/-- The accepted name of a method shows as its characters. -/
theorem shown_of_isMethodName {name : WideText} (h : isMethodName name = true) :
    name.shown.toList = name.chars :=
  WideText.shown_toList (not_mem_of_isMethodName h (by decide) (by decide) (by decide))

end MachineRbi.Rbi
