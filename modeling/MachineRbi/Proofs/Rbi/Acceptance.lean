import MachineRbi.Proofs.Rbi.Layout
import MachineRbi.Proofs.Synthesis

/-!
# Which state machines an emitter accepts

The name of a method can have a mark and a line break behind its word, but the four methods of an
event leave room for neither in the name of the event: Ruby can define all methods of an item
exactly if the item is a word (`definable_declare_iff`). So an emitter takes state machines exactly
if their events and states are words with the scope before them, and otherwise it rejects the first
name in order that no method can have (`emit_synthesize_accepts_iff`).
-/

namespace MachineRbi.Rbi

variable {types : TypeVocabulary} {emitter : Emitter} {modelId : WideText}

/-- An ASCII letter or an underscore, and ASCII letters, digits and underscores behind it to the
end. -/
def IsWord (name : WideText) : Prop :=
  ∃ first rest, name = WideText.ofChars (first :: rest) ∧ (first.isAlpha ∨ first = '_') ∧
    ∀ c ∈ rest, c.isAlpha ∨ c.isDigit ∨ c = '_'

/-- A text is a word exactly if its characters are an identifier. -/
theorem isWord_iff {name : WideText} : IsWord name ↔ isIdentifier name.chars = true := by
  have hparts : ∀ first rest, isIdentifier (first :: rest) = true ↔
      (first.isAlpha ∨ first = '_') ∧ ∀ c ∈ rest, c.isAlpha ∨ c.isDigit ∨ c = '_' := by
    simp [isIdentifier, isWordStart, isWordPart, Char.isAlphanum, or_assoc]
  constructor
  · rintro ⟨first, rest, rfl, hword⟩
    rw [WideText.chars_ofChars]
    exact (hparts first rest).mpr hword
  · intro h
    -- A word has no replacement character, so the text is nothing but its characters.
    have hchars := WideText.eq_ofChars fun hmem =>
      absurd (isWordPart_of_isIdentifier h _ hmem) (by decide)
    cases hcase : name.chars with
    | nil =>
        rw [hcase] at h
        cases h
    | cons first rest =>
        rw [hcase] at h hchars
        exact ⟨first, rest, hchars, (hparts first rest).mp h⟩

/-! ## Items -/

/-- The methods of an item have no parameters or those of an event. -/
theorem parameters_of_mem_declare {item : Item} {method : Declaration}
    (h : method ∈ types.declare item) :
    ∀ parameter ∈ method.parameters, isParameterName parameter.name = true := by
  have hparams : isParameterName "params" = true := by decide
  obtain ⟨kind, name⟩ := item
  cases kind with
  | event =>
      simp only [TypeVocabulary.declare, TypeVocabulary.ofEvent, List.mem_cons, List.not_mem_nil,
        or_false] at h
      rcases h with rfl | rfl | rfl | rfl <;> simp [TypeVocabulary.eventParameters, hparams]
  | state =>
      rw [TypeVocabulary.declare, List.mem_singleton] at h
      rw [h]
      simp [TypeVocabulary.ofState]

/-- Ruby can define a method of an item exactly if it can read its name. -/
theorem definable_iff_of_mem_declare {item : Item} {method : Declaration}
    (h : method ∈ types.declare item) :
    Definable method ↔ isMethodName method.name = true :=
  and_iff_left (parameters_of_mem_declare h)

/-- Ruby can define all methods of an item exactly if the item is a word. -/
theorem definable_declare_iff {item : Item} :
    (∀ method ∈ types.declare item, Definable method) ↔ IsWord item.name := by
  have hnames : (∀ method ∈ types.declare item, Definable method) ↔
      ∀ method ∈ types.declare item, isMethodName method.name = true :=
    forall₂_congr fun method hmem => definable_iff_of_mem_declare hmem
  rw [hnames, isWord_iff]
  obtain ⟨kind, name⟩ := item
  cases kind with
  | event =>
      have hmay : isMethodName ("may_" ++ name ++ "?") =
          isIdentifier ("may_".toList ++ name.chars) :=
        isMethodName_of_mark '?' (by decide) (by simp)
      have hbang : isMethodName (name ++ "!") = isIdentifier name.chars :=
        isMethodName_of_mark '!' (by decide) (by simp)
      have hwithout : isMethodName (name ++ "_without_validation!") =
          isIdentifier (name.chars ++ "_without_validation".toList) :=
        isMethodName_of_mark '!' (by decide) (by simp)
      simp only [TypeVocabulary.declare, TypeVocabulary.ofEvent, List.forall_mem_cons,
        List.not_mem_nil, false_imp_iff, implies_true, and_true, hmay, hbang, hwithout]
      constructor
      · rintro ⟨-, -, hword, -⟩
        exact hword
      · intro hword
        have hparts := isWordPart_of_isIdentifier hword
        have htail : ∀ c ∈ "_without_validation".toList, isWordPart c = true :=
          List.all_eq_true.mp (by decide)
        exact ⟨isIdentifier_append (by decide) hparts,
          (isMethodName_of_word hparts).trans hword, hword, isIdentifier_append hword htail⟩
  | state =>
      have hquestion : isMethodName (name ++ "?") = isIdentifier name.chars :=
        isMethodName_of_mark '?' (by decide) (by simp)
      simp [TypeVocabulary.declare, TypeVocabulary.ofState, hquestion]

/-! ## State machines -/

/-- For an accepted id an emitter rejects what the first method says that is rejected. -/
theorem emit_eq_error_iff {set : DeclarationSet} (h : isConstantPath set.modelId = true)
    {rejection : Rejection} :
    emitter.emit set = .error rejection ↔
      ∃ front method back, set.declarations = front ++ method :: back ∧
        (∀ other ∈ front, Definable other) ∧
        checkMethod set.modelId.shown method = .error rejection := by
  have hmethods : emitter.emit set = .error rejection ↔
      set.declarations.mapM (checkMethod set.modelId.shown) = .error rejection := by
    unfold Emitter.emit Emitter.file ClassScope.new ClassScope.addMethods
    cases hall : set.declarations.mapM (checkMethod set.modelId.shown) <;>
      simp [h, hall, bind, Except.bind, pure, Except.pure, Except.map]
  rw [hmethods, mapM_eq_error_iff]
  simp only [checkMethod_eq_ok_iff, exists_and_left, exists_eq', and_true]

/-- If all its parameters are accepted a method is rejected exactly for its name. -/
theorem checkMethod_eq_error_iff {className : String} {method : Declaration}
    (h : ∀ parameter ∈ method.parameters, isParameterName parameter.name = true)
    {rejection : Rejection} :
    checkMethod className method = .error rejection ↔
      isMethodName method.name = false ∧ rejection = .methodName method.name className := by
  have hnone : (method.parameters.find? fun parameter => !isParameterName parameter.name) =
      none := List.find?_eq_none.mpr (by simpa using h)
  unfold checkMethod
  rw [hnone]
  cases isMethodName method.name <;> simp [eq_comm]

/-- The declarations of machines are those of items. -/
theorem mem_synthesize {machines : List Machine} {method : Declaration} :
    method ∈ (types.synthesize modelId machines).declarations ↔
      ∃ machine ∈ machines, ∃ item ∈ machine.items, method ∈ types.declare item := by
  rw [TypeVocabulary.synthesize_eq]
  simp only [List.mem_flatMap]
  constructor
  · rintro ⟨item, ⟨machine, hmachine, hitem⟩, hmethod⟩
    exact ⟨machine, hmachine, item, hitem, hmethod⟩
  · rintro ⟨machine, hmachine, item, hitem, hmethod⟩
    exact ⟨item, ⟨machine, hmachine, hitem⟩, hmethod⟩

/-- For an accepted id an emitter takes state machines exactly if each of their events and states is
a word with the scope before it, and it rejects them exactly for the first name in order that no
method can have. -/
theorem emit_synthesize_accepts_iff (emitter : Emitter) (types : TypeVocabulary)
    (h : isConstantPath modelId = true) (machines : List Machine) :
    ((∃ text, emitter.emit (types.synthesize modelId machines) = .ok text) ↔
      ∀ machine ∈ machines,
        (∀ event ∈ machine.events, IsWord (scopeLead machine.scope? ++ event)) ∧
          ∀ state ∈ machine.states, IsWord (scopeLead machine.scope? ++ state)) ∧
    ∀ rejection, emitter.emit (types.synthesize modelId machines) = .error rejection ↔
      ∃ front method back,
        (types.synthesize modelId machines).declarations = front ++ method :: back ∧
          (∀ other ∈ front, isMethodName other.name = true) ∧
          isMethodName method.name = false ∧
          rejection = .methodName method.name modelId.shown := by
  constructor
  · simp only [emit_eq_ok_iff]
    have hitems : ∀ machine : Machine, (∀ item ∈ machine.items, IsWord item.name) ↔
        (∀ event ∈ machine.events, IsWord (scopeLead machine.scope? ++ event)) ∧
          ∀ state ∈ machine.states, IsWord (scopeLead machine.scope? ++ state) := by
      intro machine
      simp only [Machine.items, List.forall_mem_append, List.forall_mem_map]
    have hmethods :
        (∀ method ∈ (types.synthesize modelId machines).declarations, Definable method) ↔
          ∀ machine ∈ machines, ∀ item ∈ machine.items, IsWord item.name := by
      simp only [← @definable_declare_iff types, mem_synthesize]
      constructor
      · intro hall machine hmachine item hitem method hmethod
        exact hall method ⟨machine, hmachine, item, hitem, hmethod⟩
      · rintro hall method ⟨machine, hmachine, item, hitem, hmethod⟩
        exact hall machine hmachine item hitem method hmethod
    simp only [← hitems]
    rw [← hmethods]
    constructor
    · rintro ⟨_, _, hall, _⟩
      exact hall
    · intro hall
      exact ⟨_, h, hall, rfl⟩
  · intro rejection
    rw [emit_eq_error_iff h]
    have hparameters : ∀ method ∈ (types.synthesize modelId machines).declarations,
        ∀ parameter ∈ method.parameters, isParameterName parameter.name = true := by
      intro method hmem
      obtain ⟨_, _, item, _, hmethod⟩ := mem_synthesize.mp hmem
      exact parameters_of_mem_declare hmethod
    refine exists_congr fun front => exists_congr fun method => exists_congr fun back =>
      and_congr_right fun hsplit => ?_
    rw [hsplit] at hparameters
    rw [checkMethod_eq_error_iff (hparameters method (by simp))]
    refine and_congr_left fun _ => forall₂_congr fun other hmem => ?_
    exact and_iff_left (hparameters other (List.mem_append_left _ hmem))

/-- A review with a scope is accepted, and an event with a mark behind its name is rejected for the
question about it. -/
theorem emit_synthesize_accepts_iff_review :
    let emitter : Emitter := {}
    let review : Machine :=
      { scope? := some "review", events := ["2nd_look"], states := ["open", ""] }
    let marked : Machine := { events := ["approve", "close!"] }
    (∃ text, emitter.emit (TypeVocabulary.synthesize {} "Admin::Post" [review]) = .ok text) ∧
      emitter.emit (TypeVocabulary.synthesize {} "Admin::Post" [review, marked]) =
        .error (.methodName "may_close!?" "Admin::Post") := by
  intro emitter review marked
  have hpath : isConstantPath "Admin::Post" = true := by decide
  have hwords : ∀ machine ∈ [review],
      (∀ event ∈ machine.events, IsWord (scopeLead machine.scope? ++ event)) ∧
        ∀ state ∈ machine.states, IsWord (scopeLead machine.scope? ++ state) := by
    simp only [isWord_iff]
    decide
  refine ⟨(emit_synthesize_accepts_iff emitter {} hpath [review]).1.mpr hwords, ?_⟩
  let declarations := (TypeVocabulary.synthesize {} "Admin::Post" [review, marked]).declarations
  refine ((emit_synthesize_accepts_iff emitter {} hpath [review, marked]).2 _).mpr ?_
  refine ⟨declarations.take 10, ⟨"may_close!?", some "T::Boolean", []⟩, declarations.drop 11, ?_⟩
  exact ⟨by decide, by decide, by decide, by decide⟩

end MachineRbi.Rbi
