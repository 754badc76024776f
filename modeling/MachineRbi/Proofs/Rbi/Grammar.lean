import MachineRbi.Proofs.Rbi.Acceptance
import MachineRbi.Proofs.Underscore.Stem

/-!
# The grammar of accepted names

The names of classes, methods and parameters follow a small grammar. The builder keeps to it but for
line breaks: it also takes a name with one line break behind it, and a mark before the break then
does not count against a parameter. `names_taken_iff` says so of all names, and that nothing else
goes wrong.
-/

namespace MachineRbi.Rbi

variable {name : WideText}

/-! ## Grammar -/

/-- An ASCII capital, and ASCII letters, digits and underscores behind it to the end. -/
def IsCapitalized (cs : List Char) : Prop :=
  ∃ first rest, cs = first :: rest ∧ first.isUpper ∧ ∀ c ∈ rest, c.isAlpha ∨ c.isDigit ∨ c = '_'

/-- One or more constants with double colons between them, and perhaps before the first. -/
def IsPath (name : WideText) : Prop :=
  ∃ lead parts, (lead = [] ∨ lead = [':', ':']) ∧ parts ≠ [] ∧
    (∀ part ∈ parts, IsCapitalized part) ∧
    name = WideText.ofChars (lead ++ [':', ':'].intercalate parts)

/-- A word, perhaps with a question mark, an exclamation mark or an equals sign behind it. -/
def IsMethod (name : WideText) : Prop :=
  ∃ word mark, IsWord word ∧ mark ∈ ["", "?", "!", "="] ∧ name = word ++ WideText.ofString mark

/-- A name of this kind with a line break behind it. -/
def Broken (IsName : WideText → Prop) (name : WideText) : Prop :=
  ∃ core, IsName core ∧ name = core ++ "\n"

/-! ## Line breaks -/

/-- A line break at the end is dropped. -/
theorem dropBreak_concat (cs : List Char) : dropBreak (cs ++ ['\n']) = cs := by
  simp [dropBreak]

/-- Without line breaks nothing is dropped. -/
theorem dropBreak_of_not_mem {cs : List Char} (h : '\n' ∉ cs) : dropBreak cs = cs :=
  if_neg fun hlast => h (List.mem_of_getLast? hlast)

/-- Characters in two parts are those of a text with a text behind it. -/
theorem ofChars_append (cs rest : List Char) :
    WideText.ofChars (cs ++ rest) = WideText.ofChars cs ++ WideText.ofChars rest :=
  WideText.ext List.map_append

/-- Nothing changes with an empty text behind it. -/
theorem append_empty (name : WideText) : name ++ WideText.ofString "" = name :=
  WideText.ext (List.append_nil name.points)

/-- Where names of a kind are spelled by characters that are all plain, a text is spelled like one
up to a line break at its end exactly if it is one or has one before a line break. -/
theorem dropBreak_iff (Spells : List Char → Prop) {IsName : WideText → Prop}
    (hname : ∀ name, IsName name ↔ ∃ cs, Spells cs ∧ name = WideText.ofChars cs)
    (hplain : ∀ cs, Spells cs → '\n' ∉ cs ∧ '\uFFFD' ∉ cs) :
    Spells (dropBreak name.chars) ↔ IsName name ∨ Broken IsName name := by
  constructor
  · intro h
    have hclean := (hplain _ h).2
    -- Only characters have been looked at, so the name must be nothing but its characters.
    have hchars : name = WideText.ofChars name.chars := by
      refine WideText.eq_ofChars fun hmem => hclean ?_
      rcases eq_dropBreak_or name.chars with heq | heq
      · rwa [← heq]
      · rw [heq, List.mem_append, List.mem_singleton] at hmem
        exact hmem.resolve_right (by decide)
    rcases eq_dropBreak_or name.chars with heq | heq
    · rw [← heq] at h
      exact .inl ((hname name).mpr ⟨_, h, hchars⟩)
    · refine .inr ⟨_, (hname _).mpr ⟨_, h, rfl⟩, ?_⟩
      calc name = WideText.ofChars (dropBreak name.chars ++ ['\n']) := by rw [← heq, ← hchars]
        _ = WideText.ofChars (dropBreak name.chars) ++ "\n" := ofChars_append _ _
  · rintro (h | ⟨core, h, rfl⟩)
    · obtain ⟨cs, hspells, rfl⟩ := (hname _).mp h
      rwa [WideText.chars_ofChars, dropBreak_of_not_mem (hplain cs hspells).1]
    · obtain ⟨cs, hspells, rfl⟩ := (hname _).mp h
      have hchars : (WideText.ofChars cs ++ "\n" : WideText).chars = cs ++ ['\n'] := by simp
      rwa [hchars, dropBreak_concat]

/-! ## Paths -/

/-- A constant is a capitalized word. -/
theorem isConstant_iff {cs : List Char} : isConstant cs = true ↔ IsCapitalized cs := by
  cases cs with
  | nil => simp [isConstant, IsCapitalized]
  | cons first rest =>
      simp [isConstant, IsCapitalized, isWordPart, Char.isAlphanum, or_assoc]

/-- Constants with double colons between them are recognized part by part. -/
theorem isScopedConstant_iff {cs : List Char} :
    isScopedConstant cs = true ↔
      ∃ lead parts, (lead = [] ∨ lead = [':', ':']) ∧ parts ≠ [] ∧
        (∀ part ∈ parts, IsCapitalized part) ∧ cs = lead ++ [':', ':'].intercalate parts := by
  simp only [isScopedConstant, List.all_eq_true, isConstant_iff]
  constructor
  · intro h
    have hpieces := intercalate_splitScopes (dropLeadingScope cs)
    have hlead : ∃ lead, (lead = [] ∨ lead = [':', ':']) ∧ cs = lead ++ dropLeadingScope cs := by
      unfold dropLeadingScope
      split
      next rest => exact ⟨[':', ':'], .inr rfl, rfl⟩
      next => exact ⟨[], .inl rfl, rfl⟩
    obtain ⟨lead, hlead, hcs⟩ := hlead
    exact ⟨lead, _, hlead, splitScopes_ne_nil _, h, by rw [hpieces, ← hcs]⟩
  · rintro ⟨lead, parts, hlead, hnonempty, hparts, rfl⟩
    have hplain : ∀ part ∈ parts, Underscore.IsPart part := by
      intro part hmem
      rw [← List.append_nil part]
      exact Underscore.isPart_of_isConstant (isConstant_iff.mpr (hparts part hmem)) [] (.inl rfl)
    have hdrop : dropLeadingScope (lead ++ [':', ':'].intercalate parts) =
        [':', ':'].intercalate parts := by
      rcases hlead with rfl | rfl
      · exact Underscore.dropLeadingScope_intercalate hplain hnonempty
      · rfl
    rwa [hdrop, splitScopes_intercalate hnonempty fun part hmem =>
      (Underscore.not_mem_of_isPart (hplain part hmem)).1]

/-- A class can have a name exactly if it is a path, or one with a line break behind it. -/
theorem isConstantPath_iff :
    isConstantPath name = true ↔ IsPath name ∨ Broken IsPath name := by
  refine dropBreak_iff (fun cs => isScopedConstant cs = true) (fun name => ?_) ?_
  · simp only [isScopedConstant_iff]
    constructor
    · rintro ⟨lead, parts, hlead, hnonempty, hparts, rfl⟩
      exact ⟨_, ⟨lead, parts, hlead, hnonempty, hparts, rfl⟩, rfl⟩
    · rintro ⟨_, ⟨lead, parts, hlead, hnonempty, hparts, rfl⟩, rfl⟩
      exact ⟨lead, parts, hlead, hnonempty, hparts, rfl⟩
  · intro cs h
    have hparts := isPathPart_of_isScopedConstant h
    exact ⟨fun hmem => absurd (hparts _ hmem) (by decide),
      fun hmem => absurd (hparts _ hmem) (by decide)⟩

/-! ## Methods and parameters -/

/-- A word is spelled by the characters of an identifier. -/
theorem isWord_iff_exists : IsWord name ↔
    ∃ cs, isIdentifier cs = true ∧ name = WideText.ofChars cs := by
  constructor
  · intro h
    have hchars := isWord_iff.mp h
    refine ⟨name.chars, hchars, WideText.eq_ofChars fun hmem => ?_⟩
    exact absurd (isWordPart_of_isIdentifier hchars _ hmem) (by decide)
  · rintro ⟨cs, hcs, rfl⟩
    rwa [isWord_iff, WideText.chars_ofChars]

/-- A word does not end in a mark. -/
theorem endsInMark_of_isIdentifier {cs : List Char} (h : isIdentifier cs = true) :
    endsInMark cs = false := by
  refine Bool.eq_false_iff.mpr fun hends => ?_
  obtain ⟨mark, hlast, his⟩ := (Option.any_eq_true _ _).mp hends
  have hword := isWordPart_of_isIdentifier h mark (List.mem_of_getLast? hlast)
  rw [(not_isMark_of_isWordPart hword).1] at his
  cases his

/-- A mark at the end is dropped. -/
theorem dropMark_concat {mark : Char} (h : isMark mark = true) (cs : List Char) :
    dropMark (cs ++ [mark]) = cs := by
  simp [dropMark, endsInMark, h]

/-- A method is spelled by an identifier, perhaps with a mark behind it. -/
theorem isMethod_iff_exists : IsMethod name ↔
    ∃ cs, isIdentifier (dropMark cs) = true ∧ name = WideText.ofChars cs := by
  constructor
  · rintro ⟨word, mark, hword, hmark, rfl⟩
    obtain ⟨cs, hcs, rfl⟩ := isWord_iff_exists.mp hword
    refine ⟨cs ++ mark.toList, ?_, (ofChars_append cs mark.toList).symm⟩
    simp only [List.mem_cons, List.not_mem_nil, or_false] at hmark
    rcases hmark with rfl | rfl | rfl | rfl
    · show isIdentifier (dropMark (cs ++ [])) = true
      rwa [List.append_nil, dropMark, endsInMark_of_isIdentifier hcs]
    · exact (dropMark_concat (show isMark '?' = true by decide) cs).symm ▸ hcs
    · exact (dropMark_concat (show isMark '!' = true by decide) cs).symm ▸ hcs
    · exact (dropMark_concat (show isMark '=' = true by decide) cs).symm ▸ hcs
  · rintro ⟨cs, hcs, rfl⟩
    have hword := isWord_iff_exists.mpr ⟨_, hcs, rfl⟩
    rcases eq_dropMark_or cs with heq | ⟨mark, his, heq⟩
    · exact ⟨_, "", hword, by simp, by rw [append_empty, ← heq]⟩
    · have hmark : String.ofList [mark] ∈ ["", "?", "!", "="] := by
        simp only [isMark, Bool.or_eq_true, decide_eq_true_eq] at his
        rcases his with (rfl | rfl) | rfl <;> decide
      refine ⟨_, _, hword, hmark, ?_⟩
      rw [WideText.ofString, String.toList_ofList, ← ofChars_append, ← heq]

/-- A method can have a name exactly if it is one, or one with a line break behind it. -/
theorem isMethodName_iff :
    isMethodName name = true ↔ IsMethod name ∨ Broken IsMethod name := by
  refine dropBreak_iff (fun cs => isIdentifier (dropMark cs) = true)
    (fun name => isMethod_iff_exists) fun cs h => ?_
  have hparts : ∀ c ∈ cs, isWordPart c = true ∨ isMark c = true := by
    intro c hmem
    rcases eq_dropMark_or cs with heq | ⟨mark, his, heq⟩
    · rw [heq] at hmem
      exact .inl (isWordPart_of_isIdentifier h c hmem)
    · rw [heq, List.mem_append, List.mem_singleton] at hmem
      rcases hmem with hmem | rfl
      · exact .inl (isWordPart_of_isIdentifier h c hmem)
      · exact .inr his
  exact ⟨fun hmem => absurd (hparts _ hmem) (by decide),
    fun hmem => absurd (hparts _ hmem) (by decide)⟩

/-- A parameter can have a name exactly if it is a word, or the name of a method with a line break
behind it. -/
theorem isParameterName_iff {parameter : String} :
    isParameterName parameter = true ↔
      IsWord parameter ∨ Broken IsMethod parameter := by
  unfold isParameterName
  rw [Bool.and_eq_true, Bool.not_eq_true', isMethodName_iff]
  constructor
  · rintro ⟨hmethod | hbroken, hends⟩
    · obtain ⟨cs, hcs, heq⟩ := isMethod_iff_exists.mp hmethod
      have hchars : parameter.toList = cs := by
        simpa using congrArg WideText.chars heq
      rw [← hchars, dropMark, hends] at hcs
      exact .inl (isWord_iff_exists.mpr ⟨_, hcs, rfl⟩)
    · exact .inr hbroken
  · rintro (hword | hbroken)
    · have hidentifier := isWord_iff.mp hword
      rw [WideText.chars_ofString] at hidentifier
      exact ⟨.inl ⟨_, "", hword, by simp, (append_empty _).symm⟩,
        endsInMark_of_isIdentifier hidentifier⟩
    · refine ⟨.inr hbroken, ?_⟩
      obtain ⟨core, -, heq⟩ := hbroken
      have hchars : parameter.toList = core.chars ++ ['\n'] := by
        simpa using congrArg WideText.chars heq
      rw [hchars]
      simp [endsInMark, isMark]

/-! ## The builder -/

/-- A file takes a class exactly if its name is a path, and then there is no line break in it. -/
structure File.TakesPaths (file : File) (name : WideText) : Prop where
  taken : (∃ grown, file.addClass name = .ok grown) ↔ IsPath name
  rejected : (∃ rejection, file.addClass name = .error rejection) ↔ ¬ IsPath name
  unbroken : (∃ grown, file.addClass name = .ok grown) → '\n' ∉ name.chars

/-- Ruby's grammar has the name of the method, and its parameters are words. -/
def IsSignature (method : Declaration) : Prop :=
  IsMethod method.name ∧ ∀ parameter ∈ method.parameters, IsWord parameter.name

/-- A class takes a method exactly if its names are those of the grammar, and then there is no line
break in any of them. -/
structure ClassScope.TakesSignatures (scope : ClassScope) (method : Declaration) : Prop where
  taken : (∃ grown, scope.addMethod method = .ok grown) ↔ IsSignature method
  rejected : (∃ rejection, scope.addMethod method = .error rejection) ↔ ¬ IsSignature method
  unbroken : (∃ grown, scope.addMethod method = .ok grown) →
    '\n' ∉ method.name.chars ∧ ∀ parameter ∈ method.parameters, '\n' ∉ parameter.name.toList

/-- Some name of the method is one with a line break behind it. -/
def HasBreak (method : Declaration) : Prop :=
  Broken IsMethod method.name ∨ ∃ parameter ∈ method.parameters, Broken IsMethod parameter.name

/-- A class is added exactly if the name passes its check. -/
theorem addClass_iff {file : File} :
    ((∃ grown, file.addClass name = .ok grown) ↔ isConstantPath name = true) ∧
      ((∃ rejection, file.addClass name = .error rejection) ↔ isConstantPath name = false) := by
  unfold File.addClass ClassScope.new
  cases isConstantPath name <;> simp [Except.map]

/-- A method is added exactly if its names pass their checks. -/
theorem addMethod_iff {scope : ClassScope} {method : Declaration} :
    ((∃ grown, scope.addMethod method = .ok grown) ↔ Definable method) ∧
      ((∃ rejection, scope.addMethod method = .error rejection) ↔ ¬ Definable method) := by
  unfold ClassScope.addMethod
  cases hcheck : checkMethod scope.name method with
  | ok checked =>
      have hdefinable := (checkMethod_eq_ok_iff.mp hcheck).1
      simp [Except.map, hdefinable]
  | error rejection =>
      have hnot : ¬ Definable method := fun hdefinable => by
        rw [checkMethod_eq_ok_iff.mpr ⟨hdefinable, rfl⟩] at hcheck
        cases hcheck
      simp [Except.map, hnot]

/-- No path has a line break in it. -/
theorem IsPath.unbroken (h : IsPath name) : '\n' ∉ name.chars := by
  obtain ⟨lead, parts, hlead, hnonempty, hparts, rfl⟩ := h
  have hscoped := isScopedConstant_iff.mpr ⟨lead, parts, hlead, hnonempty, hparts, rfl⟩
  rw [WideText.chars_ofChars]
  exact fun hmem => absurd (isPathPart_of_isScopedConstant hscoped _ hmem) (by decide)

/-- No word has a line break in it. -/
theorem IsWord.unbroken (h : IsWord name) : '\n' ∉ name.chars := fun hmem =>
  absurd (isWordPart_of_isIdentifier (isWord_iff.mp h) _ hmem) (by decide)

/-- No method has a line break in its name. -/
theorem IsMethod.unbroken (h : IsMethod name) : '\n' ∉ name.chars := by
  obtain ⟨word, mark, hword, hmark, rfl⟩ := h
  have hplain : '\n' ∉ mark.toList := by
    simp only [List.mem_cons, List.not_mem_nil, or_false] at hmark
    rcases hmark with rfl | rfl | rfl | rfl <;> decide
  simp [hword.unbroken, hplain]

/-- A line break behind a name is in it. -/
theorem Broken.mem {IsName : WideText → Prop} (h : Broken IsName name) : '\n' ∈ name.chars := by
  obtain ⟨core, -, rfl⟩ := h
  simp

/-- A file takes the paths of constants and those with a line break behind them as names of classes,
and it rejects all others; a class takes the methods of Ruby's grammar, but for line breaks behind
the names of methods and parameters. So both keep to the grammar exactly as long as they take no
name with a line break behind it. -/
theorem names_taken_iff (file : File) (name : WideText) (scope : ClassScope)
    (method : Declaration) :
    ((∃ grown, file.addClass name = .ok grown) ↔ IsPath name ∨ Broken IsPath name) ∧
    (file.TakesPaths name ↔ ¬ Broken IsPath name) ∧
    ((∃ grown, scope.addMethod method = .ok grown) ↔
      (IsMethod method.name ∨ Broken IsMethod method.name) ∧
        ∀ parameter ∈ method.parameters,
          IsWord parameter.name ∨ Broken IsMethod parameter.name) ∧
    (scope.TakesSignatures method ↔
      ¬ ((∃ grown, scope.addMethod method = .ok grown) ∧ HasBreak method)) := by
  have hclass : (∃ grown, file.addClass name = .ok grown) ↔ IsPath name ∨ Broken IsPath name :=
    addClass_iff.1.trans isConstantPath_iff
  have hmethod : (∃ grown, scope.addMethod method = .ok grown) ↔
      (IsMethod method.name ∨ Broken IsMethod method.name) ∧
        ∀ parameter ∈ method.parameters,
          IsWord parameter.name ∨ Broken IsMethod parameter.name := by
    simp only [addMethod_iff.1, Definable, isMethodName_iff, isParameterName_iff]
  refine ⟨hclass, ⟨?_, ?_⟩, hmethod, ⟨?_, ?_⟩⟩
  · intro htakes hbroken
    exact htakes.unbroken (hclass.mpr (.inr hbroken)) hbroken.mem
  · intro hwhole
    have htaken : (∃ grown, file.addClass name = .ok grown) ↔ IsPath name :=
      hclass.trans (or_iff_left hwhole)
    refine ⟨htaken, ?_, fun htook => (htaken.mp htook).unbroken⟩
    rw [← htaken, addClass_iff.1, addClass_iff.2, Bool.not_eq_true]
  · rintro htakes ⟨htook, hbroken | ⟨parameter, hmem, hbroken⟩⟩
    · exact (htakes.unbroken htook).1 hbroken.mem
    · exact (htakes.unbroken htook).2 parameter hmem (by simpa using hbroken.mem)
  · intro hwhole
    have htaken : (∃ grown, scope.addMethod method = .ok grown) ↔ IsSignature method := by
      constructor
      · intro htook
        obtain ⟨hname, hparameters⟩ := hmethod.mp htook
        refine ⟨hname.resolve_right fun hbroken => hwhole ⟨htook, .inl hbroken⟩, ?_⟩
        intro parameter hmem
        exact (hparameters parameter hmem).resolve_right fun hbroken =>
          hwhole ⟨htook, .inr ⟨parameter, hmem, hbroken⟩⟩
      · rintro ⟨hname, hparameters⟩
        exact hmethod.mpr ⟨.inl hname, fun parameter hmem => .inl (hparameters parameter hmem)⟩
    refine ⟨htaken, ?_, fun htook => ?_⟩
    · rw [← htaken, addMethod_iff.1, addMethod_iff.2]
    · obtain ⟨hname, hparameters⟩ := htaken.mp htook
      exact ⟨hname.unbroken, fun parameter hmem => by
        simpa using (hparameters parameter hmem).unbroken⟩

/-- A file takes a class whose name has a line break behind it, a class takes such a method, and it
takes a parameter with a mark and a line break behind its word. -/
theorem not_takes_lineBreaks :
    ¬ File.TakesPaths {} "Foo\n" ∧
      ¬ ClassScope.TakesSignatures ⟨"Lamp", []⟩ ⟨"go\n", none, []⟩ ∧
      ¬ ClassScope.TakesSignatures ⟨"Lamp", []⟩ ⟨"go", none, [⟨"a?\n", none, false⟩]⟩ := by
  refine ⟨fun h => ?_, fun h => ?_, fun h => ?_⟩
  · exact h.unbroken (addClass_iff.1.mpr (by decide)) (by decide)
  · exact (h.unbroken (addMethod_iff.1.mpr (by decide))).1 (by decide)
  · exact (h.unbroken (addMethod_iff.1.mpr (by decide))).2 _ List.mem_cons_self (by decide)

end MachineRbi.Rbi
