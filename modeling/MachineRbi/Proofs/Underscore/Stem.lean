import MachineRbi.Proofs.Files.Path
import MachineRbi.Proofs.Rbi.Name
import MachineRbi.Underscore

/-!
# The stems of accepted ids

No step of `underscore` looks across a slash, so the stem of an id is made part by part
(`stem_intercalate`). The parts of an accepted id are words, and their stems are words of small
letters, so the path of a stem goes through one name for each part.
-/

namespace MachineRbi

/-! ## Lower case -/

namespace Text

/-- A slash is no letter and not passed over either, so letters are looked for up to it only. -/
theorem meetsCased_append_slash (cs rest : List Char) :
    meetsCased (cs ++ '/' :: rest) = meetsCased cs := by
  unfold meetsCased
  induction cs with
  | nil =>
      have hslash : caseIgnorablePoints.has '/' = false := by decide +kernel
      have hcased : casedPoints.has '/' = false := by decide +kernel
      simp [hslash, hcased]
  | cons c cs ih =>
      rw [List.cons_append, List.dropWhile_cons, List.dropWhile_cons]
      cases caseIgnorablePoints.has c with
      | true => exact ih
      | false => rfl

/-- What comes before a slash does not change the lower case of what comes after. -/
theorem lowerAfter_append_slash (near far cs : List Char) :
    lowerAfter (near ++ '/' :: far) cs = lowerAfter near cs := by
  -- Each letter joins those before the next one, so the induction is for all of them.
  induction cs generalizing near with
  | nil => rfl
  | cons c rest ih =>
      have hrest := ih (c :: near)
      have hends : endsWord (near ++ '/' :: far) rest = endsWord near rest := by
        rw [endsWord, endsWord, meetsCased_append_slash]
      rw [List.cons_append] at hrest
      rw [lowerAfter, lowerAfter, hends, hrest]

/-- Lower case is taken on both sides of a slash alike. -/
theorem lowerAfter_slash (before cs rest : List Char) :
    lowerAfter before (cs ++ '/' :: rest) =
      lowerAfter before cs ++ '/' :: lowerChars rest := by
  induction cs generalizing before with
  | nil =>
      have hlower : lowerAfter before ('/' :: rest) = '/' :: lowerAfter ('/' :: before) rest := by
        simp [lowerAfter, lowerChar]
      rw [List.nil_append, hlower]
      show '/' :: lowerAfter ([] ++ '/' :: before) rest = '/' :: lowerAfter [] rest
      rw [lowerAfter_append_slash]
  | cons c cs ih =>
      have hends : endsWord before (cs ++ '/' :: rest) = endsWord before cs := by
        rw [endsWord, endsWord, meetsCased_append_slash]
      rw [List.cons_append, lowerAfter, lowerAfter, hends, ih, List.append_assoc]

/-- Only two letters have more than one lower case or one that depends on others. -/
theorem lowerAfter_eq_map {before cs : List Char} (hsigma : '\u03A3' ∉ cs)
    (hdotted : '\u0130' ∉ cs) : lowerAfter before cs = cs.map lowerChar := by
  induction cs generalizing before with
  | nil => rfl
  | cons c rest ih =>
      simp only [List.mem_cons, not_or] at hsigma hdotted
      rw [lowerAfter, if_neg (Ne.symm hsigma.1), if_neg (Ne.symm hdotted.1),
        ih hsigma.2 hdotted.2]
      rfl

end Text

namespace Underscore

/-! ## Parts -/

/-- The texts between double colons have slashes between them afterwards. -/
theorem slashScopes_eq (cs : List Char) :
    slashScopes cs = ['/'].intercalate (Rbi.splitScopes cs) := by
  fun_induction slashScopes cs with
  | case1 rest ih =>
      rw [ih, Rbi.splitScopes, List.intercalate_cons_of_ne_nil (Rbi.splitScopes_ne_nil rest)]
      rfl
  | case2 c rest hscope ih =>
      rw [ih, Rbi.splitScopes]
      · cases hrest : Rbi.splitScopes rest with
        | nil => exact (Rbi.splitScopes_ne_nil rest hrest).elim
        | cons first others => rw [List.intercalate_cons_cons_left]
      · exact hscope
  | case3 => rfl

/-- Double colons between texts without colons become slashes. -/
theorem slashScopes_intercalate {parts : List (List Char)} (hnonempty : parts ≠ [])
    (hparts : ∀ part ∈ parts, ':' ∉ part) :
    slashScopes ([':', ':'].intercalate parts) = ['/'].intercalate parts := by
  rw [slashScopes_eq, Rbi.splitScopes_intercalate hnonempty hparts]

/-- A slash belongs to no acronym and to no other word. -/
theorem slash_parts : isCapital '/' = false ∧ isSmall '/' = false ∧
    Text.isDecimalDigit '/' = false ∧ inAcronym '/' = false := by decide

/-- An acronym ends at a slash as it ends at the end of a text. -/
theorem breakAcronyms_slash (reversed cs rest : List Char) :
    breakAcronyms reversed (cs ++ '/' :: rest) =
      breakAcronyms reversed cs ++ '/' :: breakAcronyms [] rest := by
  induction cs generalizing reversed with
  | nil =>
      have hclose : closeAcronym reversed '/' = reversed.reverse := by
        unfold closeAcronym
        split
        · simp [slash_parts]
        · rfl
      simp [breakAcronyms, slash_parts, hclose]
  | cons c cs ih =>
      simp only [List.cons_append, breakAcronyms]
      split
      · exact ih _
      · rw [ih, List.append_assoc, List.cons_append]

/-- A word ends at a slash as it ends at the end of a text. -/
theorem breakWords_slash (cs rest : List Char) :
    breakWords (cs ++ '/' :: rest) = breakWords cs ++ '/' :: breakWords rest := by
  fun_induction breakWords cs with
  | case1 a b others hbreak ih => simp [breakWords, hbreak, ih]
  | case2 a b others hbreak ih =>
      rw [List.cons_append] at ih
      simp [breakWords, hbreak, ih]
  | case3 c => cases rest <;> simp [breakWords, slash_parts]
  | case4 => cases rest <;> simp [breakWords, slash_parts]

/-- The stem of a text without double colons. -/
def stem (cs : List Char) : List Char :=
  Text.lowerChars ((partWords cs).map joinHyphen)

/-- The stem of an id is that of its text with slashes. -/
theorem underscore_toList (modelId : String) :
    (underscore modelId).toList = stem (slashScopes modelId.toList) :=
  String.toList_ofList

/-- A stem is made on both sides of a slash alike. -/
theorem stem_slash (cs rest : List Char) :
    stem (cs ++ '/' :: rest) = stem cs ++ '/' :: stem rest := by
  have hwords : partWords (cs ++ '/' :: rest) = partWords cs ++ '/' :: partWords rest := by
    rw [partWords, breakAcronyms_slash, breakWords_slash]
    rfl
  rw [stem, hwords, List.map_append, List.map_cons]
  exact Text.lowerAfter_slash [] _ _

/-- The stem of texts with slashes between them is made of the stems of the texts. -/
theorem stem_intercalate (parts : List (List Char)) :
    stem (['/'].intercalate parts) = ['/'].intercalate (parts.map stem) := by
  induction parts with
  | nil => rfl
  | cons part rest ih =>
      cases rest with
      | nil => simp
      | cons next others =>
          rw [List.map_cons, List.map_cons, List.intercalate_cons_cons,
            List.intercalate_cons_cons, List.append_assoc, List.append_assoc, ← List.map_cons,
            ← ih]
          exact stem_slash part _

/-! ## Letters -/

/-- The text without its underscores. -/
def solid (cs : List Char) : List Char :=
  cs.filter (· ≠ '_')

/-- Underscores are left out on both sides of a text in two. -/
theorem solid_append (cs rest : List Char) : solid (cs ++ rest) = solid cs ++ solid rest :=
  List.filter_append ..

/-- Underscores are left out character by character. -/
theorem solid_cons (c : Char) (rest : List Char) : solid (c :: rest) = solid [c] ++ solid rest :=
  solid_append [c] rest

/-- Words are parted by underscores only. -/
theorem solid_breakWords (cs : List Char) : solid (breakWords cs) = solid cs := by
  have hunder : solid ['_'] = [] := rfl
  fun_induction breakWords cs with
  | case1 a b rest hbreak ih =>
      rw [solid_cons, solid_cons '_', solid_cons b, ih, hunder, List.nil_append, ← solid_cons b,
        ← solid_cons a]
  | case2 a b rest hbreak ih => rw [solid_cons, ih, ← solid_cons]
  | case3 | case4 => rfl

/-- Nothing but an underscore is put into an acronym. -/
theorem solid_closeAcronym (reversed : List Char) (next : Char) :
    solid (closeAcronym reversed next) = solid reversed.reverse := by
  unfold closeAcronym
  split
  next last before earlier =>
    split
    · rw [solid_append, solid_cons, @List.reverse_cons _ last (before :: earlier), solid_append]
      rfl
    · rfl
  next => rfl

/-- Acronyms are parted by underscores only. -/
theorem solid_breakAcronyms (reversed cs : List Char) :
    solid (breakAcronyms reversed cs) = solid reversed.reverse ++ solid cs := by
  induction cs generalizing reversed with
  | nil => exact (List.append_nil _).symm
  | cons c rest ih =>
      unfold breakAcronyms
      split
      · rw [ih, List.reverse_cons, solid_append, List.append_assoc, ← solid_cons]
      · rw [solid_append, solid_closeAcronym, solid_cons, ih, solid_cons c rest]
        rfl

/-- But for underscores the parted text is the text. -/
theorem solid_partWords (cs : List Char) : solid (partWords cs) = solid cs := by
  rw [partWords, solid_breakWords, solid_breakAcronyms]
  rfl

/-- The characters of a parted text come from the text, but for underscores. -/
theorem mem_of_mem_partWords {cs : List Char} {c : Char} (h : c ∈ partWords cs) :
    c ∈ cs ∨ c = '_' := by
  by_cases hunder : c = '_'
  · exact .inr hunder
  · have hsolid : c ∈ solid (partWords cs) := List.mem_filter.mpr ⟨h, by simpa using hunder⟩
    rw [solid_partWords] at hsolid
    exact .inl (List.mem_filter.mp hsolid).1

/-! ## Accepted ids -/

/-- A part of an accepted id: a word with something else than underscores, perhaps with a line break
in it. -/
structure IsPart (cs : List Char) : Prop where
  lettered : solid cs ≠ []
  wordPart : ∀ c ∈ cs, Rbi.isWordPart c = true ∨ c = '\n'

/-- A constant is a part, also with a line break behind it. -/
theorem isPart_of_isConstant {cs : List Char} (h : Rbi.isConstant cs = true) (tail : List Char)
    (htail : tail = [] ∨ tail = ['\n']) : IsPart (cs ++ tail) := by
  cases cs with
  | nil => cases h
  | cons c rest =>
      have hfirst : c ≠ '_' := by
        rintro rfl
        simp only [Rbi.isConstant, Bool.and_eq_true] at h
        exact absurd h.1 (by decide)
      constructor
      · rw [List.cons_append, solid, List.filter_cons_of_pos (by simpa using hfirst)]
        simp
      · intro d hmem
        rcases List.mem_append.mp hmem with hmem | hmem
        · exact .inl (Rbi.isWordPart_of_isConstant h d hmem)
        · rcases htail with rfl | rfl
          · cases hmem
          · exact .inr (List.mem_singleton.mp hmem)

/-- A part has no colon and no slash. -/
theorem not_mem_of_isPart {part : List Char} (h : IsPart part) : ':' ∉ part ∧ '/' ∉ part := by
  constructor
  · intro hmem
    exact absurd (h.wordPart _ hmem) (by decide)
  · intro hmem
    exact absurd (h.wordPart _ hmem) (by decide)

/-- The id starts with double colons. -/
def isRooted (modelId : WideText) : Bool :=
  modelId.shown.toList.take 2 = [':', ':']

/-- Parts with double colons between them start with a character of the first part. -/
theorem exists_intercalate_eq_cons {parts : List (List Char)} (hparts : ∀ part ∈ parts, IsPart part)
    (hnonempty : parts ≠ []) :
    ∃ c tail, [':', ':'].intercalate parts = c :: tail ∧ c ≠ ':' := by
  obtain ⟨first, rest, rfl⟩ := List.exists_cons_of_ne_nil hnonempty
  obtain ⟨others, hothers⟩ := Path.exists_intercalate_cons [':', ':'] first rest
  have hpart := hparts first List.mem_cons_self
  cases first with
  | nil => exact (hpart.lettered rfl).elim
  | cons c cs =>
      have hc : c ≠ ':' := fun heq => (not_mem_of_isPart hpart).1 (by simp [heq])
      exact ⟨c, cs ++ others, hothers, hc⟩

/-- An id that is parts with double colons between them does not start with double colons. -/
theorem isRooted_eq_false {name : WideText} {parts : List (List Char)}
    (hparts : ∀ part ∈ parts, IsPart part) (hnonempty : parts ≠ [])
    (hname : name.shown.toList = [':', ':'].intercalate parts) : isRooted name = false := by
  obtain ⟨c, tail, hstart, hc⟩ := exists_intercalate_eq_cons hparts hnonempty
  simp [isRooted, hname, hstart, hc]

/-- There are no double colons to drop before parts with double colons between them. -/
theorem dropLeadingScope_intercalate {parts : List (List Char)}
    (hparts : ∀ part ∈ parts, IsPart part) (hnonempty : parts ≠ []) :
    Rbi.dropLeadingScope ([':', ':'].intercalate parts) = [':', ':'].intercalate parts := by
  obtain ⟨c, tail, hstart, hc⟩ := exists_intercalate_eq_cons hparts hnonempty
  rw [hstart]
  unfold Rbi.dropLeadingScope
  split
  next rest hcolons => exact (hc (List.cons_eq_cons.mp hcolons).1).elim
  next => rfl

/-- Constants with double colons between them are an accepted id, and the constants of it. -/
theorem isConstantPath_ofChars {parts : List (List Char)} (hnonempty : parts ≠ [])
    (hparts : ∀ part ∈ parts, Rbi.isConstant part = true) :
    let name := WideText.ofChars ([':', ':'].intercalate parts)
    Rbi.isConstantPath name = true ∧ isRooted name = false ∧ Rbi.constants name = parts := by
  intro name
  have hchars : name.chars = [':', ':'].intercalate parts := WideText.chars_ofChars _
  have hplain : ∀ part ∈ parts, IsPart part := by
    intro part hmem
    rw [← List.append_nil part]
    exact isPart_of_isConstant (hparts part hmem) [] (.inl rfl)
  have hbreak : Rbi.dropBreak name.chars = name.chars := by
    refine if_neg fun hlast => ?_
    rw [hchars] at hlast
    rcases Rbi.mem_intercalate (List.mem_of_getLast? hlast) with hmem | ⟨part, hmem, hin⟩
    · exact absurd hmem (by decide)
    · exact absurd (Rbi.isWordPart_of_isConstant (hparts part hmem) _ hin) (by decide)
  have hpieces : Rbi.splitScopes (Rbi.dropLeadingScope name.chars) = parts := by
    rw [hchars, dropLeadingScope_intercalate hplain hnonempty]
    exact Rbi.splitScopes_intercalate hnonempty fun part hmem =>
      (not_mem_of_isPart (hplain part hmem)).1
  have hpath : Rbi.isConstantPath name = true := by
    rw [Rbi.isConstantPath, hbreak, Rbi.isScopedConstant, hpieces, List.all_eq_true]
    exact hparts
  refine ⟨hpath, isRooted_eq_false hplain hnonempty ?_, hpieces⟩
  rw [Rbi.shown_of_isConstantPath hpath, hchars]

/-- An accepted id has parts with double colons between them, and double colons before the first if
it starts with them. -/
theorem parts_of_isConstantPath {name : WideText} (h : Rbi.isConstantPath name = true) :
    ∃ front last, (∀ part ∈ front ++ [last], IsPart part) ∧
      name.shown.toList = (if isRooted name then [':', ':'] else []) ++
        [':', ':'].intercalate (front ++ [last]) := by
  obtain ⟨core, hcore, hchars⟩ := Rbi.chars_of_isConstantPath h
  obtain ⟨tail, htail, hchars⟩ :
      ∃ tail, (tail = [] ∨ tail = ['\n']) ∧ name.chars = core ++ tail := by
    rcases hchars with hchars | hchars
    · exact ⟨[], .inl rfl, by rw [hchars, List.append_nil]⟩
    · exact ⟨_, .inr rfl, hchars⟩
  have hconstants := List.all_eq_true.mp hcore
  have hpieces := Rbi.intercalate_splitScopes (Rbi.dropLeadingScope core)
  obtain ⟨front, last, hfront⟩ : ∃ front last,
      Rbi.splitScopes (Rbi.dropLeadingScope core) = front ++ [last] :=
    ⟨_, _, (List.dropLast_concat_getLast (Rbi.splitScopes_ne_nil _)).symm⟩
  rw [hfront] at hconstants hpieces
  -- A line break behind the id goes into its last part.
  have hparts : ∀ part ∈ front ++ [last ++ tail], IsPart part := by
    intro part hmem
    rcases List.mem_append.mp hmem with hmem | hmem
    · rw [← List.append_nil part]
      exact isPart_of_isConstant (hconstants part (List.mem_append_left _ hmem)) [] (.inl rfl)
    · rw [List.mem_singleton.mp hmem]
      exact isPart_of_isConstant (hconstants last (by simp)) tail htail
  have hshown : ∀ lead, core = lead ++ Rbi.dropLeadingScope core →
      name.shown.toList = lead ++ [':', ':'].intercalate (front ++ [last ++ tail]) := by
    intro lead hlead
    rw [Rbi.shown_of_isConstantPath h, hchars, ← Path.intercalate_concat_append, hpieces,
      ← List.append_assoc, ← hlead]
  refine ⟨front, last ++ tail, hparts, ?_⟩
  unfold Rbi.dropLeadingScope at hshown
  split at hshown
  next rest =>
    have hrooted := hshown [':', ':'] rfl
    rw [isRooted, hrooted]
    rfl
  next =>
    have hplain : name.shown.toList = [':', ':'].intercalate (front ++ [last ++ tail]) :=
      hshown [] rfl
    rw [isRooted_eq_false hparts (by simp) hplain]
    exact hplain

/-- The constants of an accepted id are parts. They stand in it with double colons between them, and
double colons before the first if it starts with them. -/
theorem constants_of_isConstantPath {name : WideText} (h : Rbi.isConstantPath name = true) :
    ∃ front last, Rbi.constants name = front ++ [last] ∧
      (∀ part ∈ front ++ [last], IsPart part) ∧
      name.shown.toList = (if isRooted name then [':', ':'] else []) ++
        [':', ':'].intercalate (front ++ [last]) := by
  obtain ⟨front, last, hparts, hshown⟩ := parts_of_isConstantPath h
  refine ⟨front, last, ?_, hparts, hshown⟩
  have hdropped : Rbi.dropLeadingScope name.chars = [':', ':'].intercalate (front ++ [last]) := by
    rw [← Rbi.shown_of_isConstantPath h]
    cases hrooted : isRooted name with
    | true =>
        rw [hshown, hrooted]
        rfl
    | false =>
        rw [hrooted] at hshown
        unfold Rbi.dropLeadingScope
        split
        next rest hcolons => simp [isRooted, hcolons] at hrooted
        next => exact hshown
  rw [Rbi.constants, hdropped]
  exact Rbi.splitScopes_intercalate (by simp) fun part hmem =>
    (not_mem_of_isPart (hparts part hmem)).1

/-- The characters of words have small numbers. -/
theorem toNat_lt_of_isWordPart {c : Char} (h : Rbi.isWordPart c = true) : c.toNat < 123 := by
  have hparts : ((decide (65 ≤ c.val ∧ c.val ≤ 90) ||
      (decide (97 ≤ c.val) && decide (c.val ≤ 122))) ||
      (decide (48 ≤ c.val) && decide (c.val ≤ 57))) || decide (c = '_') := h
  simp only [Bool.or_eq_true, Bool.and_eq_true, decide_eq_true_eq] at hparts
  rcases hparts with ((⟨-, hle⟩ | ⟨-, hle⟩) | ⟨-, hle⟩) | rfl
  · have hcapital : c.toNat ≤ 90 := UInt32.le_iff_toNat_le.mp hle
    omega
  · have hletter : c.toNat ≤ 122 := UInt32.le_iff_toNat_le.mp hle
    omega
  · have hdigit : c.toNat ≤ 57 := UInt32.le_iff_toNat_le.mp hle
    omega
  · show 95 < 123
    omega

/-- Lower case keeps the characters of words and line breaks among themselves. -/
theorem wordPart_lowerChar {c : Char} (h : Rbi.isWordPart c = true ∨ c = '\n') :
    Rbi.isWordPart (Text.lowerChar (joinHyphen c)) = true ∨
      Text.lowerChar (joinHyphen c) = '\n' := by
  have hsmall : c.toNat < 123 := by
    rcases h with hword | rfl
    · exact toNat_lt_of_isWordPart hword
    · show 10 < 123
      omega
  -- So few characters are looked up in the table one by one.
  have hall : ∀ n < 123, Rbi.isWordPart (Char.ofNat n) = true ∨ Char.ofNat n = '\n' →
      Rbi.isWordPart (Text.lowerChar (joinHyphen (Char.ofNat n))) = true ∨
        Text.lowerChar (joinHyphen (Char.ofNat n)) = '\n' := by decide +kernel
  have hc := hall c.toNat hsmall
  rw [Char.ofNat_toNat] at hc
  exact hc h

/-- Double colons of an accepted id become slashes. -/
theorem slashScopes_of_isConstantPath {name : WideText} (h : Rbi.isConstantPath name = true) :
    ∃ front last, Rbi.constants name = front ++ [last] ∧
      (∀ part ∈ front ++ [last], IsPart part) ∧
      slashScopes name.shown.toList = (if isRooted name then ['/'] else []) ++
        ['/'].intercalate (front ++ [last]) := by
  obtain ⟨front, last, hconstants, hparts, hshown⟩ := constants_of_isConstantPath h
  have hslash := slashScopes_intercalate (by simp) fun part hmem =>
    (not_mem_of_isPart (hparts part hmem)).1
  refine ⟨front, last, hconstants, hparts, ?_⟩
  rw [hshown, ← hslash]
  cases isRooted name <;> rfl

/-- Parting the words of a part adds no other characters to it than those of words. -/
theorem wordPart_partWords {part : List Char} (h : IsPart part) :
    ∀ c ∈ partWords part, Rbi.isWordPart c = true ∨ c = '\n' := by
  intro c hmem
  rcases mem_of_mem_partWords hmem with hmem | rfl
  · exact h.wordPart c hmem
  · exact .inl (by decide)

/-- The stem of a part is made character by character of its parted words. -/
theorem stem_eq_map {part : List Char} (h : IsPart part) :
    stem part = (partWords part).map (Text.lowerChar ∘ joinHyphen) := by
  have hforeign : ∀ letter, Rbi.isWordPart letter = false → letter ≠ '\n' → letter ≠ '_' →
      letter ∉ (partWords part).map joinHyphen := by
    intro letter hword hbreak hunder hmem
    obtain ⟨c, hc, rfl⟩ := List.mem_map.mp hmem
    unfold joinHyphen at hword hbreak hunder
    split at hword
    next hhyphen => simp [hhyphen] at hunder
    next hhyphen =>
      rcases wordPart_partWords h c hc with hpart | rfl
      · rw [hpart] at hword
        cases hword
      · simp at hbreak
  rw [stem, Text.lowerChars, Text.lowerAfter_eq_map
    (hforeign _ (by decide) (by decide) (by decide))
    (hforeign _ (by decide) (by decide) (by decide)), List.map_map]

/-- The stem of a part is not empty and made of the characters of words and line breaks. -/
theorem stem_of_isPart {part : List Char} (h : IsPart part) :
    stem part ≠ [] ∧ ∀ c ∈ stem part, Rbi.isWordPart c = true ∨ c = '\n' := by
  rw [stem_eq_map h]
  constructor
  · -- A part has more than underscores, and nothing else is ever added or dropped.
    intro hnil
    have hempty : solid part = [] := by
      rw [← solid_partWords, List.map_eq_nil_iff.mp hnil]
      rfl
    exact h.lettered hempty
  · intro c hmem
    obtain ⟨d, hd, rfl⟩ := List.mem_map.mp hmem
    exact wordPart_lowerChar (wordPart_partWords h d hd)

/-! ## File names -/

/-- The stem of a part can name an entry of a directory, also with the extension behind it. -/
theorem isPiece_stem {part : List Char} (h : IsPart part) :
    Path.IsPiece (stem part) ∧ Path.IsPiece (stem part ++ ".rbi".toList) := by
  obtain ⟨hnonempty, hchars⟩ := stem_of_isPart h
  have hdot : '.' ∉ stem part := fun hmem => absurd (hchars '.' hmem) (by decide)
  have hslash : '/' ∉ stem part := fun hmem => absurd (hchars '/' hmem) (by decide)
  refine ⟨⟨?_, fun hup => hdot (by simp [hup]), hslash⟩, ⟨?_, ?_, by simp [hslash]⟩⟩
  · have hpoint : stem part ≠ ['.'] := fun heq => hdot (by simp [heq])
    simp [Path.isName, hnonempty, hpoint]
  · have hpoint : stem part ++ ".rbi".toList ≠ ['.'] := fun heq => by
      simpa using congrArg List.length heq
    simpa [Path.isName] using hpoint
  · intro hup
    simpa using congrArg List.length hup

/-- The file stem of a part alone is its stem. -/
theorem underscore_of_isPart {part : List Char} (h : IsPart part) :
    underscore (String.ofList part) = String.ofList (stem part) := by
  have hslash : slashScopes part = part := by
    simpa using slashScopes_intercalate (List.cons_ne_nil part []) fun other hmem =>
      List.mem_singleton.mp hmem ▸ (not_mem_of_isPart h).1
  rw [← String.toList_inj, underscore_toList, String.toList_ofList, String.toList_ofList, hslash]

/-- The file name of an accepted id is made of names with slashes between them, which are the stems
of its constants, and a slash before the first if the id starts with double colons. -/
theorem pieces_of_isConstantPath {name : WideText} (h : Rbi.isConstantPath name = true) :
    ∃ front last, Rbi.constants name = front ++ [last] ∧
      (∀ piece ∈ front.map stem ++ [stem last ++ ".rbi".toList], Path.IsPiece piece) ∧
      (underscore name.shown ++ ".rbi").toList = (if isRooted name then ['/'] else []) ++
        ['/'].intercalate (front.map stem ++ [stem last ++ ".rbi".toList]) := by
  obtain ⟨front, last, hconstants, hparts, hslashes⟩ := slashScopes_of_isConstantPath h
  refine ⟨front, last, hconstants, ?_, ?_⟩
  · intro piece hpiece
    rcases List.mem_append.mp hpiece with hpiece | hpiece
    · obtain ⟨part, hmem, rfl⟩ := List.mem_map.mp hpiece
      exact (isPiece_stem (hparts part (List.mem_append_left _ hmem))).1
    · rw [List.mem_singleton.mp hpiece]
      exact (isPiece_stem (hparts last (by simp))).2
  · have hstem : stem (slashScopes name.shown.toList) = (if isRooted name then ['/'] else []) ++
        ['/'].intercalate (front.map stem ++ [stem last]) := by
      have hmap : front.map stem ++ [stem last] = (front ++ [last]).map stem := by simp
      rw [hslashes, hmap, ← stem_intercalate]
      cases isRooted name with
      | true => exact stem_slash [] _
      | false => rfl
    rw [String.toList_append, underscore_toList, hstem, List.append_assoc,
      Path.intercalate_concat_append]

end Underscore

end MachineRbi
