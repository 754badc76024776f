import MachineRbi.Proofs.Generation.Run
import MachineRbi.Proofs.Rbi.Layout
import MachineRbi.Proofs.Traversal

/-!
# The text that is made for a model

A job composes a text from the declarations of a model. They come from its state machines, so their
types are those of the vocabulary, and a composed text has a carriage return only from the header
(`return_not_mem_compose`).
-/

namespace MachineRbi

variable [Stack]

/-- The declarations of a model are those of some state machines. -/
theorem Manifest.inspect_eq_ok {manifest : Manifest} {types : TypeVocabulary}
    {modelId : WideText} {set : DeclarationSet} (h : manifest.inspect types modelId = .ok set) :
    ∃ machines, set = types.synthesize modelId machines := by
  unfold inspect at h
  obtain ⟨capable, -, h⟩ := bind_eq_ok_iff.mp h
  cases capable with
  | false =>
      -- No list of state machines gives the same as an empty one.
      cases h
      exact ⟨[], rfl⟩
  | true =>
      obtain ⟨names, -, h⟩ := bind_eq_ok_iff.mp h
      obtain ⟨machines, -, h⟩ := bind_eq_ok_iff.mp h
      cases h
      exact ⟨machines, rfl⟩

omit [Stack] in
/-- Synthesized declarations name the types of the vocabulary only. -/
theorem TypeVocabulary.plainTypes_of_mem_synthesize {types : TypeVocabulary}
    (hboolean : '\r' ∉ types.boolean.toList) (huntyped : '\r' ∉ types.untyped.toList)
    {modelId : WideText} {machines : List Machine} {method : Declaration}
    (h : method ∈ (types.synthesize modelId machines).declarations) : Rbi.PlainTypes method := by
  have hplain : method.returnType? = some types.boolean ∧
      ∀ parameter ∈ method.parameters, parameter.type? = some types.untyped := by
    simp only [synthesize, ofMachine, ofEvent, ofState, eventParameters, List.mem_flatMap,
      List.mem_append, List.mem_map, List.mem_cons, List.not_mem_nil, or_false] at h
    obtain ⟨machine, -, ⟨event, -, rfl | rfl | rfl | rfl⟩ | ⟨state, -, rfl⟩⟩ := h <;> simp
  obtain ⟨hreturn, hparameters⟩ := hplain
  constructor
  · intro type htype
    rw [hreturn, Option.mem_some_iff] at htype
    exact htype ▸ hboolean
  · intro parameter hmem type htype
    rw [hparameters parameter hmem, Option.mem_some_iff] at htype
    exact htype ▸ huntyped

namespace Job

variable {job : Job} {manifest : Manifest} {modelId : WideText} {set : DeclarationSet}
  {text : String}

/-- A job composes the text that its emitter makes of the declarations of a model. -/
theorem compose_eq_ok_iff :
    job.compose manifest modelId = .ok (set, text) ↔
      manifest.inspect job.types modelId = .ok set ∧ job.emitter.emit set = .ok text := by
  have hemitted : ∀ found : DeclarationSet,
      (job.emitter.emit found).mapError Failure.rejection = .ok text ↔
        job.emitter.emit found = .ok text := by
    intro found
    cases job.emitter.emit found <;> simp [Except.mapError]
  unfold compose
  constructor
  · intro h
    obtain ⟨found, hinspect, h⟩ := bind_eq_ok_iff.mp h
    obtain ⟨composed, hemit, h⟩ := bind_eq_ok_iff.mp h
    cases h
    exact ⟨hinspect, (hemitted set).mp hemit⟩
  · rintro ⟨hinspect, hemit⟩
    exact bind_eq_ok_iff.mpr ⟨set, hinspect,
      bind_eq_ok_iff.mpr ⟨text, (hemitted set).mpr hemit, rfl⟩⟩

/-- No text can be composed for a model that cannot be inspected, or whose declarations cannot be
emitted. -/
theorem failure_of_compose {failure : Failure} (h : job.compose manifest modelId = .error failure) :
    manifest.inspect job.types modelId = .error failure ∨
      ∃ reason, failure = .rejection reason := by
  obtain hinspect | ⟨found, -, h⟩ := bind_eq_error_iff.mp h
  · exact .inl hinspect
  · obtain hemit | ⟨text, -, h⟩ := bind_eq_error_iff.mp h
    · cases hfound : job.emitter.emit found with
      | ok text => simp [hfound, Except.mapError] at hemit
      | error reason =>
          rw [hfound] at hemit
          cases hemit
          exact .inr ⟨reason, rfl⟩
    · cases h

/-- Texts are composed for accepted ids only. -/
theorem isConstantPath_of_compose (h : job.compose manifest modelId = .ok (set, text)) :
    Rbi.isConstantPath modelId = true := by
  obtain ⟨hinspect, hemit⟩ := compose_eq_ok_iff.mp h
  obtain ⟨machines, rfl⟩ := Manifest.inspect_eq_ok hinspect
  exact (Rbi.emit_eq_ok_iff.mp hemit).1

/-- A composed text has no carriage return if the header says none and the types have none. -/
theorem return_not_mem_compose (hsigil : '\r' ∉ job.emitter.sigil.toList)
    (hcommand : '\r' ∉ job.emitter.command.toList) (htypes : job.types = job.emitter.types)
    (h : job.compose manifest modelId = .ok (set, text)) : '\r' ∉ text.toList := by
  obtain ⟨hinspect, hemit⟩ := compose_eq_ok_iff.mp h
  obtain ⟨machines, rfl⟩ := Manifest.inspect_eq_ok hinspect
  refine Rbi.return_not_mem_emit hemit hsigil hcommand fun method hmem => ?_
  rw [htypes] at hmem
  exact TypeVocabulary.plainTypes_of_mem_synthesize
    (show '\r' ∉ "T::Boolean".toList by decide) (show '\r' ∉ "T.untyped".toList by decide) hmem

/-- A stored text is up to date if the header says no carriage return and the types have none. -/
theorem Stored.upToDate {workspace : Workspace} (h : job.Stored manifest workspace modelId)
    (hsigil : '\r' ∉ job.emitter.sigil.toList) (hcommand : '\r' ∉ job.emitter.command.toList)
    (htypes : job.types = job.emitter.types) : job.UpToDate manifest workspace modelId := by
  obtain ⟨set, text, hcompose, hread⟩ := h
  rw [Text.unified_of_not_mem (return_not_mem_compose hsigil hcommand htypes hcompose)] at hread
  exact ⟨set, text, hcompose, hread⟩

end Job

end MachineRbi
