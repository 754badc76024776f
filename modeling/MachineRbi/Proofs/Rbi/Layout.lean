import MachineRbi.Proofs.Rbi.Name
import MachineRbi.Proofs.Traversal
import MachineRbi.Rbi.Emitter

/-!
# The layout of an interface file

An emitter succeeds exactly if it can define every name (`emit_eq_ok_iff`), and then its text is the
lines of the file, each with a line break behind it. A line has a line end in it only from a name, a
type or what the header says (`not_mem_lines`). Accepted names bring no carriage return into the
text, so `return_not_mem_emit` asks only for a header and types without one.
-/

namespace MachineRbi.Rbi

/-- Ruby can define a method with this name and these parameters. -/
def Definable (method : Declaration) : Prop :=
  isMethodName method.name = true ∧
    ∀ parameter ∈ method.parameters, isParameterName parameter.name = true

/-- Whether Ruby can define a method is decided name by name. -/
instance (method : Declaration) : Decidable (Definable method) :=
  inferInstanceAs (Decidable (_ ∧ _))

/-- A class holds exactly the methods that Ruby can define, and as they stand. -/
theorem checkMethod_eq_ok_iff {className : String} {method checked : Declaration} :
    checkMethod className method = .ok checked ↔ Definable method ∧ method = checked := by
  unfold checkMethod Definable
  cases hname : isMethodName method.name with
  | false => simp
  | true =>
      cases hfind : method.parameters.find? fun parameter => !isParameterName parameter.name with
      | some parameter =>
          have hnot : ¬ ∀ parameter ∈ method.parameters,
              isParameterName parameter.name = true := fun hall => by
            have hrejected := List.find?_some hfind
            simp [hall parameter (List.mem_of_find?_eq_some hfind)] at hrejected
          simp [hnot]
      | none =>
          have hall : ∀ parameter ∈ method.parameters,
              isParameterName parameter.name = true := by
            simpa using List.find?_eq_none.mp hfind
          simpa using fun _ => hall

/-- A class holds a list of methods exactly if it can hold each of them. -/
theorem mapM_checkMethod_eq_ok_iff {className : String} {methods checked : List Declaration} :
    methods.mapM (checkMethod className) = .ok checked ↔
      (∀ method ∈ methods, Definable method) ∧ methods = checked := by
  simp only [mapM_eq_ok_iff, checkMethod_eq_ok_iff]
  rw [List.forall₂_and_left, List.forall₂_eq_eq_eq]

/-- The lines of the file of a model. -/
def Emitter.lines (emitter : Emitter) (set : DeclarationSet) : List String :=
  emitter.header set.modelId ++ "" :: ("class " ++ set.modelId.shown) ::
    (methodLines 1 set.declarations ++ ["end"])

/-- An emitter takes the constants as models and the methods that Ruby can define, and nothing
else. -/
theorem emit_eq_ok_iff {emitter : Emitter} {set : DeclarationSet} {text : String} :
    emitter.emit set = .ok text ↔
      isConstantPath set.modelId = true ∧ (∀ method ∈ set.declarations, Definable method) ∧
        text = "\n".intercalate (emitter.lines set) ++ "\n" := by
  unfold Emitter.emit Emitter.file ClassScope.new ClassScope.addMethods
  cases hpath : isConstantPath set.modelId with
  | false => simp [bind, Except.bind, Except.map]
  | true =>
      cases hmethods : set.declarations.mapM (checkMethod set.modelId.shown) with
      | error rejection =>
          have hnot : ¬ ∀ method ∈ set.declarations, Definable method := fun hall => by
            rw [mapM_checkMethod_eq_ok_iff.mpr ⟨hall, rfl⟩] at hmethods
            cases hmethods
          simp [bind, Except.bind, Except.map, hmethods, hnot]
      | ok methods =>
          obtain ⟨hall, rfl⟩ := mapM_checkMethod_eq_ok_iff.mp hmethods
          have hlines : (⟨emitter.header set.modelId,
              [⟨set.modelId.shown, set.declarations⟩]⟩ : File).render =
              "\n".intercalate (emitter.lines set) ++ "\n" := rfl
          simpa [bind, Except.bind, pure, Except.pure, Except.map, hmethods, ← hlines,
            @eq_comm _ text] using fun _ => hall

/-! ## Characters of lines -/

/-- Every line between those of a class is empty, a signature or a definition. -/
theorem mem_methodLines {level : Nat} {methods : List Declaration} {line : String}
    (h : line ∈ methodLines level methods) :
    line = "" ∨ ∃ method ∈ methods, line = indent level ++ signatureLine method ∨
      line = indent level ++ definitionLine method := by
  fun_induction methodLines level methods with
  | case1 => cases h
  | case2 method =>
      rw [List.mem_cons, List.mem_singleton] at h
      exact .inr ⟨method, List.mem_cons_self, h⟩
  | case3 method next rest ih =>
      rw [List.mem_cons, List.mem_cons, List.mem_cons] at h
      rcases h with hline | hline | hline | hline
      · exact .inr ⟨method, List.mem_cons_self, .inl hline⟩
      · exact .inr ⟨method, List.mem_cons_self, .inr hline⟩
      · exact .inl hline
      · rcases ih hline with hline | ⟨other, hmem, hline⟩
        · exact .inl hline
        · exact .inr ⟨other, List.mem_cons_of_mem _ hmem, hline⟩

/-- The character ends a line, or a part of a line end. -/
def IsLineEnd (c : Char) : Prop :=
  c = '\r' ∨ c = '\n'

/-- Neither the name and the parameters of a method nor its types hold the character. -/
structure Lacks (c : Char) (method : Declaration) : Prop where
  name : c ∉ method.name.shown.toList
  returnType : ∀ type ∈ method.returnType?, c ∉ type.toList
  parameterName : ∀ parameter ∈ method.parameters, c ∉ parameter.name.toList
  parameterType : ∀ parameter ∈ method.parameters, ∀ type ∈ parameter.type?, c ∉ type.toList

section LineEnd

variable {c : Char} (hend : IsLineEnd c)

include hend

/-- A type without line ends, or what stands for it, has none. -/
theorem not_mem_typeOr {type? : Option String} (h : ∀ type ∈ type?, c ∉ type.toList) :
    c ∉ (typeOr "T.untyped" type?).toList := by
  have hfallback : c ∉ "T.untyped".toList := by
    rcases hend with rfl | rfl <;> decide
  unfold typeOr
  split
  next type =>
    split
    · exact hfallback
    · exact h type rfl
  next => exact hfallback

/-- What a signature says about the result has a line end only from the type. -/
theorem not_mem_resultClause {type? : Option String} (h : ∀ type ∈ type?, c ∉ type.toList) :
    c ∉ (resultClause type?).toList := by
  have hvoid : c ∉ "void".toList := by
    rcases hend with rfl | rfl <;> decide
  unfold resultClause
  split
  next type =>
    split
    · exact hvoid
    · rcases hend with rfl | rfl <;> simp [h type rfl]
  next => exact hvoid

omit hend in
/-- Texts with a separator between them have a character only from one of them. -/
theorem not_mem_intercalate {separator : String} {texts : List String}
    (hseparator : c ∉ separator.toList) (h : ∀ text ∈ texts, c ∉ text.toList) :
    c ∉ (separator.intercalate texts).toList := by
  rw [String.toList_intercalate]
  intro hmem
  rcases mem_intercalate hmem with hmem | ⟨cs, hcs, hmem⟩
  · exact hseparator hmem
  · obtain ⟨text, htext, rfl⟩ := List.mem_map.mp hcs
    exact h text htext hmem

/-- A list of texts has a line end only from one of them. -/
theorem not_mem_commas {texts : List String} (h : ∀ text ∈ texts, c ∉ text.toList) :
    c ∉ (", ".intercalate texts).toList :=
  not_mem_intercalate (by rcases hend with rfl | rfl <;> decide) h

/-- The signature of a method has a line end only from its parameters and its types. -/
theorem not_mem_signatureLine {method : Declaration} (h : Lacks c method) :
    c ∉ (signatureLine method).toList := by
  have hresult := not_mem_resultClause hend h.returnType
  have hparameters : c ∉
      (", ".intercalate (method.parameters.map signatureParameter)).toList := by
    refine not_mem_commas hend fun text htext => ?_
    obtain ⟨parameter, hmem, rfl⟩ := List.mem_map.mp htext
    have hname := h.parameterName parameter hmem
    have htype := not_mem_typeOr hend (h.parameterType parameter hmem)
    rcases hend with rfl | rfl <;> simp [signatureParameter, hname, htype]
  unfold signatureLine
  dsimp only
  rcases hend with rfl | rfl <;> split <;>
    simp [-String.toList_intercalate, hresult, hparameters]

/-- The definition of a method has a line end only from its name and its parameters. -/
theorem not_mem_definitionLine {method : Declaration} (h : Lacks c method) :
    c ∉ (definitionLine method).toList := by
  have hname := h.name
  have hparameters : c ∉
      (", ".intercalate (method.parameters.map definitionParameter)).toList := by
    refine not_mem_commas hend fun text htext => ?_
    obtain ⟨parameter, hmem, rfl⟩ := List.mem_map.mp htext
    have hparameter := h.parameterName parameter hmem
    unfold definitionParameter
    rcases hend with rfl | rfl <;> split <;> simp [hparameter]
  unfold definitionLine
  dsimp only
  rcases hend with rfl | rfl <;> split <;> simp [-String.toList_intercalate, hname, hparameters]

/-- A line of a file has a line end only from what the header says, from the id of the model or from
a method. -/
theorem not_mem_lines {emitter : Emitter} {set : DeclarationSet}
    (hid : c ∉ set.modelId.shown.toList) (hsigil : c ∉ emitter.sigil.toList)
    (hcommand : c ∉ emitter.command.toList)
    (hmethods : ∀ method ∈ set.declarations, Lacks c method) :
    ∀ line ∈ emitter.lines set, c ∉ line.toList := by
  intro line hline
  simp only [Emitter.lines, Emitter.header, List.cons_append, List.nil_append, List.mem_cons,
    List.mem_append, List.not_mem_nil, or_false] at hline
  have hspace : c ≠ ' ' := by
    rcases hend with rfl | rfl <;> decide
  rcases hline with rfl | rfl | rfl | rfl | rfl | rfl | hline | rfl
  · rcases hend with rfl | rfl <;> simp [hid]
  · rcases hend with rfl | rfl <;> simp [hcommand]
  · simp
  · rcases hend with rfl | rfl <;> simp [hsigil]
  · simp
  · rcases hend with rfl | rfl <;> simp [hid]
  · rcases mem_methodLines hline with rfl | ⟨method, hmem, rfl | rfl⟩
    · simp
    · simp [indent, hspace, not_mem_signatureLine hend (hmethods method hmem)]
    · simp [indent, hspace, not_mem_definitionLine hend (hmethods method hmem)]
  · rcases hend with rfl | rfl <;> decide

end LineEnd

/-! ## Carriage returns -/

/-- The types that a method names have no carriage return. -/
def PlainTypes (method : Declaration) : Prop :=
  (∀ type ∈ method.returnType?, '\r' ∉ type.toList) ∧
    ∀ parameter ∈ method.parameters, ∀ type ∈ parameter.type?, '\r' ∉ type.toList

/-- A method that Ruby can define has a carriage return only in its types. -/
theorem lacks_return {method : Declaration} (h : Definable method) (hplain : PlainTypes method) :
    Lacks '\r' method where
  name := by
    rw [shown_of_isMethodName h.1]
    exact not_mem_of_isMethodName h.1 (by decide) (by decide) (by decide)
  returnType := hplain.1
  parameterName := fun parameter hmem => by
    have hparameter := h.2 parameter hmem
    simp only [isParameterName, Bool.and_eq_true] at hparameter
    have hname := not_mem_of_isMethodName hparameter.1 (show isWordPart '\r' = false by decide)
      (by decide) (by decide)
    rwa [WideText.chars_ofString] at hname
  parameterType := hplain.2

/-- An emitted text has a carriage return only from what the header says or from a type. -/
theorem return_not_mem_emit {emitter : Emitter} {set : DeclarationSet} {text : String}
    (h : emitter.emit set = .ok text) (hsigil : '\r' ∉ emitter.sigil.toList)
    (hcommand : '\r' ∉ emitter.command.toList)
    (hplain : ∀ method ∈ set.declarations, PlainTypes method) : '\r' ∉ text.toList := by
  obtain ⟨hpath, hdefinable, rfl⟩ := emit_eq_ok_iff.mp h
  have hid : '\r' ∉ set.modelId.shown.toList := by
    rw [shown_of_isConstantPath hpath]
    exact not_mem_of_isConstantPath hpath (by decide) (by decide)
  have hlines := not_mem_lines (.inl rfl) hid hsigil hcommand fun method hmem =>
    lacks_return (hdefinable method hmem) (hplain method hmem)
  rw [String.toList_append, List.mem_append, not_or]
  exact ⟨not_mem_intercalate (by decide) hlines, by decide⟩

end MachineRbi.Rbi
