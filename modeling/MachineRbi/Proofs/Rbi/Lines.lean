import MachineRbi.Proofs.Rbi.Layout

/-!
# The lines of an interface file

An emitted text has a header of four lines, the line of the class, two lines for each method with an
empty one between methods, and a line that ends the class. `emit_isLaidOut_iff` says where each of
them stands if the text is parted at its line breaks. This needs names without line breaks, and a
parameter can have one: then its signature and its definition take more lines than two.
-/

namespace MachineRbi.Rbi

/-! ## Lists of parameters -/

/-- Texts with commas between an opening and a closing text; without texts there is neither. -/
def enclosed (opening closing : String) (texts : List String) : String :=
  if texts = [] then "" else opening ++ ", ".intercalate texts ++ closing

/-- A signature and a definition list these names in order: the signature with a type behind each,
the definition with two stars before some of them. Each has such a list only if there are names. -/
structure ListNames (names : List String) (signature definition : String) : Prop where
  signs : ∃ typeNames result, typeNames.length = names.length ∧
    signature = "sig \x7b " ++
      enclosed "params(" ")." (List.zipWith (fun name type => name ++ ": " ++ type) names typeNames)
        ++ result ++ " \x7d"
  defines : ∃ method leads, leads.length = names.length ∧
    (∀ lead ∈ leads, lead = "" ∨ lead = "**") ∧
    definition = "def " ++ method ++
      enclosed "(" ")" (List.zipWith (fun lead name => lead ++ name) leads names) ++ "; end"
  opens : "sig \x7b params(".toList <+: signature.toList ↔ names ≠ []
  parenthesised : '(' ∈ definition.toList ↔ names ≠ []

/-- A signature has a list of its parameters if there are any. -/
theorem signatureLine_eq (method : Declaration) :
    signatureLine method = "sig \x7b " ++
      enclosed "params(" ")." (method.parameters.map signatureParameter) ++
        resultClause method.returnType? ++ " \x7d" := by
  unfold signatureLine enclosed
  cases method.parameters <;> simp [String.append_assoc]

/-- A definition has a list of its parameters if there are any. -/
theorem definitionLine_eq (method : Declaration) :
    definitionLine method = "def " ++ method.name.shown ++
      enclosed "(" ")" (method.parameters.map definitionParameter) ++ "; end" := by
  unfold definitionLine enclosed
  cases method.parameters <;> simp [String.append_assoc]

/-- What a signature says about the result does not start like a list of parameters. -/
theorem not_prefix_resultClause (type? : Option String) (rest : List Char) :
    ¬ "params(".toList <+: (resultClause type?).toList ++ rest := by
  unfold resultClause
  split
  next type =>
    split <;> simp
  next => simp

/-- The signature and the definition of a method list the names of its parameters. -/
theorem listNames_of_definable {method : Declaration} (h : Definable method) :
    ListNames (method.parameters.map (·.name)) (signatureLine method) (definitionLine method) where
  signs := by
    refine ⟨method.parameters.map (typeOr "T.untyped" ·.type?), resultClause method.returnType?,
      by simp, ?_⟩
    rw [signatureLine_eq, List.zipWith_map, List.zipWith_self]
    rfl
  defines := by
    refine ⟨method.name.shown, method.parameters.map fun parameter =>
      if parameter.splat then "**" else "", by simp, ?_, ?_⟩
    · intro lead hmem
      obtain ⟨parameter, -, rfl⟩ := List.mem_map.mp hmem
      cases parameter.splat <;> simp
    · rw [definitionLine_eq, List.zipWith_map, List.zipWith_self]
      rfl
  opens := by
    rw [signatureLine_eq]
    cases hparameters : method.parameters with
    | nil =>
        have hresult := not_prefix_resultClause method.returnType? " \x7d".toList
        simpa [enclosed] using hresult
    | cons first rest => simp [enclosed]
  parenthesised := by
    have hname : '(' ∉ method.name.shown.toList := by
      rw [shown_of_isMethodName h.1]
      exact not_mem_of_isMethodName h.1 (by decide) (by decide) (by decide)
    rw [definitionLine_eq]
    cases hparameters : method.parameters with
    | nil => simp [enclosed, hname]
    | cons first rest => simp [enclosed]

/-! ## Places of lines -/

/-- Methods take three lines each, but for the last one, which no empty line follows. -/
theorem length_methodLines (level : Nat) (methods : List Declaration) :
    (methodLines level methods).length = 3 * methods.length - 1 := by
  fun_induction methodLines level methods with
  | case1 => rfl
  | case2 method => rfl
  | case3 method next rest ih =>
      simp only [List.length_cons] at ih ⊢
      omega

/-- A method has its signature and, below that, its definition behind the lines of the methods
before it. -/
theorem getElem?_methodLines {methods : List Declaration} {k : Nat} {method : Declaration}
    (level : Nat) (h : methods[k]? = some method) :
    (methodLines level methods)[3 * k]? = some (indent level ++ signatureLine method) ∧
      (methodLines level methods)[3 * k + 1]? = some (indent level ++ definitionLine method) := by
  fun_induction methodLines level methods generalizing k with
  | case1 => simp at h
  | case2 only =>
      obtain ⟨rfl, rfl⟩ : k = 0 ∧ only = method := by
        cases k with
        | zero => simpa using h
        | succ k => simp at h
      exact ⟨rfl, rfl⟩
  | case3 first next rest ih =>
      cases k with
      | zero =>
          obtain rfl : first = method := by simpa using h
          exact ⟨rfl, rfl⟩
      | succ k =>
          rw [List.getElem?_cons_succ] at h
          rw [show 3 * (k + 1) = 3 * k + 3 by omega, show 3 * k + 3 + 1 = 3 * k + 1 + 3 by omega]
          exact ih h

/-- An empty line stands behind every method but the last. -/
theorem getElem?_methodLines_between {methods : List Declaration} {k : Nat} (level : Nat)
    (h : k + 1 < methods.length) : (methodLines level methods)[3 * k + 2]? = some "" := by
  fun_induction methodLines level methods generalizing k with
  | case1 => simp at h
  | case2 only => simp at h
  | case3 first next rest ih =>
      cases k with
      | zero => rfl
      | succ k =>
          rw [show 3 * (k + 1) + 2 = 3 * k + 2 + 3 by omega]
          exact ih (by simpa using h)

/-- Lines as those of the file of a model: the header, an empty line, the line of the class, for
each method its signature right above its definition, with an empty line between methods, and the
line that ends the class. -/
structure LinesOf (emitter : Emitter) (set : DeclarationSet) (lines : List String) : Prop where
  length : lines.length = if set.declarations = [] then 7 else 3 * set.size + 6
  header : lines.take 4 = emitter.header set.modelId
  gap : lines[4]? = some ""
  opening : lines[5]? = some ("class " ++ set.modelId.shown)
  signature : ∀ k method, set.declarations[k]? = some method →
    lines[6 + 3 * k]? = some ("  " ++ signatureLine method)
  definition : ∀ k method, set.declarations[k]? = some method →
    lines[7 + 3 * k]? = some ("  " ++ definitionLine method)
  between : ∀ k, k + 1 < set.size → lines[8 + 3 * k]? = some ""
  closing : lines.getLast? = some "end"
  parameters : ∀ method ∈ set.declarations,
    ListNames (method.parameters.map (·.name)) (signatureLine method) (definitionLine method)

variable {emitter : Emitter} {set : DeclarationSet} {text : String}

/-- Six lines stand before those of the methods. -/
theorem getElem?_lines {k : Nat} {line : String}
    (h : (methodLines 1 set.declarations)[k]? = some line) :
    (emitter.lines set)[6 + k]? = some line := by
  have hlt := (List.getElem?_eq_some_iff.mp h).1
  rw [Nat.add_comm]
  show (methodLines 1 set.declarations ++ ["end"])[k]? = some line
  rwa [List.getElem?_append_left hlt]

/-- Seven lines stand around those of the methods. -/
theorem length_lines (emitter : Emitter) (set : DeclarationSet) :
    (emitter.lines set).length = (methodLines 1 set.declarations).length + 7 := by
  simp [Emitter.lines, Emitter.header]

/-- The lines of a file of methods that Ruby can define stand where they belong. -/
theorem linesOf_lines (emitter : Emitter) (h : ∀ method ∈ set.declarations, Definable method) :
    LinesOf emitter set (emitter.lines set) where
  length := by
    rw [length_lines, length_methodLines, DeclarationSet.size]
    split
    next hnone => rw [hnone]; rfl
    next hsome =>
      have hpos := List.length_pos_iff.mpr hsome
      omega
  header := rfl
  gap := rfl
  opening := rfl
  signature := fun k method hmethod => getElem?_lines (getElem?_methodLines 1 hmethod).1
  definition := fun k method hmethod => by
    rw [show 7 + 3 * k = 6 + (3 * k + 1) by omega]
    exact getElem?_lines (getElem?_methodLines 1 hmethod).2
  between := fun k hk => by
    rw [show 8 + 3 * k = 6 + (3 * k + 2) by omega]
    exact getElem?_lines (getElem?_methodLines_between 1 hk)
  closing := by
    show ((emitter.header set.modelId ++ "" :: ("class " ++ set.modelId.shown) ::
      methodLines 1 set.declarations) ++ ["end"]).getLast? = some "end"
    exact List.getLast?_concat
  parameters := fun method hmem => listNames_of_definable (h method hmem)

/-! ## Line breaks -/

/-- Only names of parameters can bring line breaks into the file. -/
structure UnbrokenButParameters (emitter : Emitter) (set : DeclarationSet) : Prop where
  modelId : '\n' ∉ set.modelId.shown.toList
  name : ∀ method ∈ set.declarations, '\n' ∉ method.name.shown.toList
  returnType : ∀ method ∈ set.declarations, ∀ type ∈ method.returnType?, '\n' ∉ type.toList
  parameterType : ∀ method ∈ set.declarations, ∀ parameter ∈ method.parameters,
    ∀ type ∈ parameter.type?, '\n' ∉ type.toList
  sigil : '\n' ∉ emitter.sigil.toList
  command : '\n' ∉ emitter.command.toList

/-- The text ends with a line break, and without that it is parted at its line breaks into lines as
those of the file of a model. -/
def IsLaidOut (emitter : Emitter) (set : DeclarationSet) (text : String) : Prop :=
  ∃ body lines, text = body ++ "\n" ∧ body.toList.splitOn '\n' = lines.map String.toList ∧
    LinesOf emitter set lines

/-- The parts of a list between the places of an element do not have the element. -/
theorem not_mem_of_mem_splitOn {c : Char} {cs part : List Char} (h : part ∈ cs.splitOn c) :
    c ∉ part := by
  induction cs generalizing part with
  | nil =>
      rw [List.splitOn_nil, List.mem_singleton] at h
      simp [h]
  | cons d ds ih =>
      rw [List.splitOn_cons_eq_if_modifyHead] at h
      split at h
      next =>
        rcases List.mem_cons.mp h with rfl | hmem
        · simp
        · exact ih hmem
      next hne =>
        cases hds : ds.splitOn c with
        | nil => exact absurd hds (List.splitOn_ne_nil _ _)
        | cons first rest =>
            rw [hds] at h ih
            rcases List.mem_cons.mp h with rfl | hmem
            · have hfirst := ih List.mem_cons_self
              have hother : c ≠ d := fun heq => hne (by simp [heq])
              simp [hfirst, hother]
            · exact ih (List.mem_cons_of_mem _ hmem)

/-- The definition of a method shows its parameters as they are named. -/
theorem mem_definitionLine {c : Char} {method : Declaration} {parameter : Parameter}
    (hparameter : parameter ∈ method.parameters) (hc : c ∈ parameter.name.toList) :
    c ∈ (definitionLine method).toList := by
  have hsome : method.parameters.map definitionParameter ≠ [] := by
    simpa using List.ne_nil_of_mem hparameter
  have hshown : c ∈ (definitionParameter parameter).toList := by
    rw [definitionParameter, String.toList_append, List.mem_append]
    exact .inr hc
  have hlist : c ∈ (", ".intercalate (method.parameters.map definitionParameter)).toList := by
    rw [String.toList_intercalate]
    exact mem_intercalate_of_mem
      (List.mem_map_of_mem (List.mem_map_of_mem hparameter)) hshown
  rw [definitionLine_eq, enclosed, if_neg hsome]
  simp [-String.toList_intercalate, hlist]

/-- The text of a model whose other texts have no line breaks is laid out line by line exactly if
there is no line break in the name of a parameter either. -/
theorem emit_isLaidOut_iff (h : emitter.emit set = .ok text)
    (hplain : UnbrokenButParameters emitter set) :
    IsLaidOut emitter set text ↔
      ∀ method ∈ set.declarations, ∀ parameter ∈ method.parameters,
        '\n' ∉ parameter.name.toList := by
  obtain ⟨-, hdefinable, rfl⟩ := emit_eq_ok_iff.mp h
  constructor
  · rintro ⟨body, lines, -, hsplit, hlines⟩ method hmem parameter hparameter hbreak
    obtain ⟨k, hk⟩ := List.mem_iff_getElem?.mp hmem
    have hline := List.mem_of_getElem? (hlines.definition k method hk)
    have hpart : ("  " ++ definitionLine method).toList ∈ body.toList.splitOn '\n' := by
      rw [hsplit]
      exact List.mem_map_of_mem hline
    refine not_mem_of_mem_splitOn hpart ?_
    rw [String.toList_append, List.mem_append]
    exact .inr (mem_definitionLine hparameter hbreak)
  · intro hparameters
    have hmethods : ∀ method ∈ set.declarations, Lacks '\n' method := fun method hmem =>
      { name := hplain.name method hmem
        returnType := hplain.returnType method hmem
        parameterName := hparameters method hmem
        parameterType := hplain.parameterType method hmem }
    have hlines := not_mem_lines (.inr rfl) hplain.modelId hplain.sigil hplain.command hmethods
    refine ⟨"\n".intercalate (emitter.lines set), emitter.lines set, rfl, ?_,
      linesOf_lines emitter hdefinable⟩
    rw [String.toList_intercalate]
    refine List.splitOn_intercalate '\n' ?_ (by simp [Emitter.lines])
    intro cs hcs
    obtain ⟨line, hline, rfl⟩ := List.mem_map.mp hcs
    exact hlines line hline

/-- Two methods of a model, the one with a parameter of a named type, the other with options. -/
theorem emit_isLaidOut_iff_lamp :
    let emitter : Emitter := {}
    let set : DeclarationSet :=
      ⟨"Lamp", [⟨"dim", some "T::Boolean", [⟨"level", some "Integer", false⟩]⟩,
        ⟨"toggle", none, [⟨"options", none, true⟩, ⟨"at", none, false⟩]⟩]⟩
    ∃ text, emitter.emit set = .ok text ∧ UnbrokenButParameters emitter set ∧
      IsLaidOut emitter set text := by
  intro emitter set
  have hdefinable : ∀ method ∈ set.declarations, Definable method := by
    decide +kernel
  have htext : emitter.emit set = .ok ("\n".intercalate (emitter.lines set) ++ "\n") :=
    emit_eq_ok_iff.mpr ⟨by decide, hdefinable, rfl⟩
  have hplain : UnbrokenButParameters emitter set :=
    { modelId := by decide
      name := by decide
      returnType := by decide
      parameterType := by decide
      sigil := by decide
      command := by decide }
  exact ⟨_, htext, hplain, (emit_isLaidOut_iff htext hplain).mpr (by decide)⟩

/-- A parameter with a line break behind its word breaks the definition of its method in two. -/
theorem not_isLaidOut_brokenParameter :
    let emitter : Emitter := {}
    let set : DeclarationSet :=
      ⟨"Lamp", [⟨"go", some "T::Boolean", [⟨"a\n", some "Integer", false⟩]⟩]⟩
    ∃ text, emitter.emit set = .ok text ∧ UnbrokenButParameters emitter set ∧
      ¬ IsLaidOut emitter set text := by
  intro emitter set
  have hdefinable : ∀ method ∈ set.declarations, Definable method := by
    decide +kernel
  have htext : emitter.emit set = .ok ("\n".intercalate (emitter.lines set) ++ "\n") :=
    emit_eq_ok_iff.mpr ⟨by decide, hdefinable, rfl⟩
  refine ⟨_, htext, ?_, ?_⟩
  · exact
      { modelId := by decide
        name := by decide
        returnType := by decide
        parameterType := by decide
        sigil := by decide
        command := by decide }
  · rintro ⟨body, lines, -, hsplit, hlines⟩
    have hline := List.mem_of_getElem? (hlines.definition 0 _ rfl)
    have hbreak := not_mem_of_mem_splitOn (hsplit ▸ List.mem_map_of_mem hline)
    exact hbreak (by decide)

end MachineRbi.Rbi
