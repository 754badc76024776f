import MachineRbi.Proofs.Manifest.Consistency
import MachineRbi.Proofs.Registry

/-!
# Registries whose answers fit together

Whatever happens to a registry and its files, it holds nothing but the manifest of a document
(`isRead_after`). So once it has listed its models, all its answers are those of one manifest that
knows what it lists (`replies_of_listed`), and neither reading a manifest nor a run over its models
ever fails because something is unknown (`not_isUnknown_of_manifest`, `not_isUnknown_of_run`).
-/

namespace MachineRbi

variable {failure : Failure} {workspace : Workspace} {manifest : Manifest}

namespace Registry

variable {registry : Registry}

/-- A registry as it is made: that of a path, or that of a document. -/
inductive IsMade : Registry → Prop where
  | ofPath (path : String) : IsMade (.atPath path)
  | ofDocument {source : String} {document : Value} {registry : Registry}
      (h : ofValue source document = .ok registry) : IsMade registry

/-- What the registry holds, if anything, is the manifest of a document. -/
def IsRead (registry : Registry) : Prop :=
  ∀ manifest, registry.loaded? = some manifest →
    ∃ document, Manifest.ofValue registry.source document = .ok manifest

/-- A registry holds nothing when it is made, or the manifest of its document. -/
theorem IsMade.isRead (h : registry.IsMade) : registry.IsRead := by
  intro manifest hloaded
  cases h with
  | ofPath path => cases hloaded
  | @ofDocument source document _ h =>
      unfold ofValue at h
      cases hmanifest : Manifest.ofValue source document with
      | error failure =>
          rw [hmanifest] at h
          cases h
      | ok found =>
          rw [hmanifest] at h
          cases h
          cases hloaded
          exact ⟨document, hmanifest⟩

variable [Stack]

/-- The manifest that a registry works with is that of a document. -/
theorem IsRead.exists_document (h : registry.IsRead)
    (hmanifest : registry.manifest workspace = .ok manifest) :
    ∃ document, Manifest.ofValue registry.source document = .ok manifest := by
  unfold Registry.manifest at hmanifest
  split at hmanifest
  next held hloaded =>
    cases hmanifest
    exact h manifest hloaded
  next =>
    obtain ⟨document, -, hdocument⟩ := bind_eq_ok_iff.mp hmanifest
    exact ⟨document, hdocument⟩

/-- A query leaves a registry with nothing but the manifest of a document. -/
theorem IsRead.afterQuery (h : registry.IsRead) (workspace : Workspace) :
    (registry.afterQuery workspace).IsRead := by
  cases hmanifest : registry.manifest workspace with
  | error failure => rwa [afterQuery_of_error hmanifest]
  | ok found =>
      rw [afterQuery_of_ok hmanifest]
      intro manifest hloaded
      cases hloaded
      exact h.exists_document hmanifest

/-- Whatever happens, a registry holds nothing but the manifest of a document. -/
theorem isRead_after {scene : Scene} (h : scene.registry.IsRead) (events : List Event) :
    (scene.after events).registry.IsRead := by
  induction events generalizing scene with
  | nil => exact h
  | cons event rest ih =>
      refine ih ?_
      -- Files that change leave the registry alone.
      cases event with
      | change workspace => exact h
      | ask query => exact h.afterQuery scene.workspace

/-- What is wrong with a manifest is not that something is unknown. -/
theorem not_isUnknown_of_manifest (h : registry.manifest workspace = .error failure) :
    ¬ failure.IsUnknown := by
  unfold Registry.manifest at h
  split at h
  next => cases h
  next =>
    rw [readManifest_eq_load] at h
    obtain hdocument | ⟨document, -, hmanifest⟩ := bind_eq_error_iff.mp h
    · obtain ⟨fault, -, rfl⟩ | rfl | ⟨bytes, fault, -, -, rfl⟩ := failure_of_documentIn hdocument
      · exact not_false
      · exact not_false
      · cases fault <;> exact not_false
    · exact Manifest.not_isUnknown_of_ofValue hmanifest

/-- Once a registry has listed its models, all its answers are those of one manifest that lists the
same ids and knows what it lists. -/
theorem replies_of_listed {scene : Scene} (h : scene.registry.IsRead) {answer : Answer}
    (hlisted : scene.reply .modelIds = .ok answer) :
    ∃ manifest, answer = .modelIds manifest.modelIds ∧ manifest.Consistent ∧
      ∀ later, (scene.step (.ask .modelIds)).replies later =
        (later.filterMap Event.query?).map (·.ask manifest) := by
  obtain ⟨manifest, hmanifest, hanswer⟩ := bind_eq_ok_iff.mp hlisted
  cases hanswer
  obtain ⟨document, hdocument⟩ := h.exists_document hmanifest
  refine ⟨manifest, rfl, Manifest.consistent_of_ofValue hdocument, fun later => ?_⟩
  refine Scene.replies_of_loaded ?_ later
  rw [Scene.step, afterQuery_of_ok hmanifest]

/-! ## Inspections -/

section Inspection

variable {id : WideText} {types : TypeVocabulary}

/-- The manifest that a registry works with has its source. -/
theorem IsRead.source_eq (h : registry.IsRead)
    (hmanifest : registry.manifest workspace = .ok manifest) :
    manifest.source = registry.source := by
  obtain ⟨document, hdocument⟩ := h.exists_document hmanifest
  obtain ⟨models, -, rfl⟩ := Manifest.ofValue_eq_ok hdocument
  rfl

/-- A model that the manifest of a registry does not list is unknown to an inspection. -/
theorem answer_inspect_of_not_mem (h : registry.IsRead)
    (hmanifest : registry.manifest workspace = .ok manifest) (hmem : id ∉ manifest.modelIds) :
    registry.answer workspace (·.inspect types id) =
      .error (.complaint (.unknownModel registry.source id)) := by
  rw [answer, hmanifest, ← h.source_eq hmanifest]
  exact Manifest.inspect_of_not_mem hmem

/-- If anything is unknown to an inspection, then the manifest is there and does not list the
model. -/
theorem not_mem_of_isUnknown
    (hfailure : registry.answer workspace (·.inspect types id) = .error failure)
    (hunknown : failure.IsUnknown) :
    ∃ manifest, registry.manifest workspace = .ok manifest ∧ id ∉ manifest.modelIds := by
  obtain hmanifest | ⟨manifest, hmanifest, hinspect⟩ := bind_eq_error_iff.mp hfailure
  · exact (not_isUnknown_of_manifest hmanifest hunknown).elim
  · exact ⟨manifest, hmanifest, fun hmem =>
      Manifest.not_isUnknown_of_inspect hmem hinspect hunknown⟩

end Inspection

end Registry

variable [Stack]

/-- No run fails because something is unknown. -/
theorem Job.not_isUnknown_of_run {job : Job} {registry : Registry}
    (h : (job.run registry workspace).result = .error failure) : ¬ failure.IsUnknown := by
  cases hmanifest : registry.manifest workspace with
  | error found =>
      simp only [run, hmanifest] at h
      cases h
      exact Registry.not_isUnknown_of_manifest hmanifest
  | ok manifest =>
      have hvisits := (run_result_eq_error_iff hmanifest).mp h
      obtain ⟨modelId, hmem, -, hcompose⟩ | ⟨fault, rfl⟩ :=
        failure_of_visitAll (fun _ => id) hvisits
      · obtain hinspect | ⟨reason, rfl⟩ := failure_of_compose hcompose
        · exact Manifest.not_isUnknown_of_inspect hmem hinspect
        · exact not_false
      · exact not_false

end MachineRbi
