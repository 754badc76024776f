import MachineRbi.Manifest
import MachineRbi.Proofs.Traversal

/-!
# The models of a manifest

An accepted document gives a model for each of its entries, put one after another
(`ofValue_eq_ok`). It lists one model for each id (`nodup_modelIds`), because a later entry of the
same id takes the place of the earlier one.
-/

namespace MachineRbi

/-- A model that is put among others adds its id at the end unless it is there. -/
theorem Model.ids_insert (models : List Model) (model : Model) :
    (Model.insert models model).map (·.id) =
      if model.id ∈ models.map (·.id) then models.map (·.id)
      else models.map (·.id) ++ [model.id] := by
  induction models with
  | nil => rfl
  | cons other rest ih =>
      unfold Model.insert
      by_cases hsame : other.id = model.id
      · simp [hsame]
      · rw [if_neg hsame, List.map_cons, ih, List.map_cons]
        by_cases hmem : model.id ∈ rest.map (·.id)
        · rw [if_pos hmem, if_pos (List.mem_cons_of_mem _ hmem)]
        · rw [if_neg hmem, if_neg, List.cons_append]
          rw [List.mem_cons, not_or]
          exact ⟨Ne.symm hsame, hmem⟩

/-- Models that are put one after another have ids of their own. -/
theorem Model.nodup_foldl_insert {models others : List Model}
    (h : (models.map (·.id)).Nodup) : ((others.foldl Model.insert models).map (·.id)).Nodup := by
  induction others generalizing models with
  | nil => exact h
  | cons other rest ih =>
      refine ih ?_
      rw [Model.ids_insert]
      -- Only an id that is not there yet is added.
      split
      next => exact h
      next hnew =>
        refine List.nodup_append.mpr ⟨h, List.pairwise_singleton _ _, ?_⟩
        intro id hmem id' hmem' hsame
        rw [List.mem_singleton.mp hmem'] at hsame
        exact hnew (hsame ▸ hmem)

/-- A key without a text gives no model. -/
theorem Model.ofEntry_of_error {key : Scalar} {failure : Failure} (h : key.name = .error failure)
    (source : String) (entry : Value) : ofEntry source key entry = .error failure := by
  rw [ofEntry, h]
  rfl

/-- Under a key with a text, an entry gives a model of that id whatever the source is, or there is a
complaint about the shape of the entry or of its list of state machines. -/
theorem Model.ofEntry_cases {key : Scalar} {id : WideText} (h : key.name = .ok id)
    (entry : Value) :
    (∃ machines?, ∀ source, ofEntry source key entry = .ok ⟨id, machines?⟩) ∨
      (∀ source, ofEntry source key entry = .error (.complaint (.entryShape source id))) ∨
      ∀ source, ofEntry source key entry = .error (.complaint (.machinesShape source id)) := by
  simp only [ofEntry, h, bind, Except.bind]
  cases entry.entriesIfAny? with
  | none => exact .inr (.inl fun _ => rfl)
  | some fields =>
      dsimp only
      cases fields.get? "state_machines" with
      | none => exact .inl ⟨none, fun _ => rfl⟩
      | some machines =>
          dsimp only
          cases machines.entriesIfAny? with
          | none => exact .inr (.inr fun _ => rfl)
          | some bindings => exact .inl ⟨some bindings, fun _ => rfl⟩

namespace Manifest

variable {source : String} {document : Value} {manifest : Manifest} {model : Model}
  {id : WideText}

/-! ## Finding a model -/

/-- A listed model is found. -/
theorem exists_model (h : id ∈ manifest.modelIds) : ∃ model, manifest.model id = .ok model := by
  obtain ⟨model, hmem, hid⟩ := List.mem_map.mp h
  have hfound : (manifest.models.find? (·.id = id)).isSome := by
    rw [List.find?_isSome]
    exact ⟨model, hmem, by simpa using hid⟩
  obtain ⟨found, hfind⟩ := Option.isSome_iff_exists.mp hfound
  exact ⟨found, by rw [Manifest.model, hfind]⟩

/-- A model that is not listed is unknown. -/
theorem model_of_not_mem (h : id ∉ manifest.modelIds) :
    manifest.model id = .error (.complaint (.unknownModel manifest.source id)) := by
  have hnone : manifest.models.find? (·.id = id) = none := by
    rw [List.find?_eq_none]
    intro model hmem hid
    exact h (List.mem_map.mpr ⟨model, hmem, by simpa using hid⟩)
  rw [Manifest.model, hnone]

/-- A model that is found is listed under its id. -/
theorem mem_of_model (h : manifest.model id = .ok model) :
    model ∈ manifest.models ∧ model.id = id := by
  unfold Manifest.model at h
  split at h
  next found hfind =>
    cases h
    exact ⟨List.mem_of_find?_eq_some hfind, by simpa using List.find?_some hfind⟩
  next => cases h

/-! ## Documents -/

/-- The entries under `models` in a document, of which one that says nothing there has none. -/
def modelEntries (document : Value) : Entries :=
  (((document.entriesIfAny?).getD []).valueOf "models").entriesIfTruthy?.getD []

/-- A document without a mapping of models has no entries and is not accepted. Any other document
says what its entries say in turn. -/
theorem ofValue_cases (source : String) (document : Value) :
    (modelEntries document = [] ∧
        (ofValue source document = .error (.complaint (.topLevel source)) ∨
          ofValue source document = .error (.complaint (.modelsShape source)))) ∨
      ofValue source document =
        ((modelEntries document).mapM fun entry => Model.ofEntry source entry.1 entry.2).map
          fun models => ⟨source, models.foldl Model.insert []⟩ := by
  unfold ofValue modelEntries
  cases document.entriesIfAny? with
  | none => exact .inl ⟨rfl, .inl rfl⟩
  | some fields =>
      simp only [Option.getD_some, bind, Except.bind]
      cases (fields.valueOf "models").entriesIfTruthy? with
      | none => exact .inl ⟨rfl, .inr rfl⟩
      | some entries =>
          refine .inr ?_
          dsimp only [Option.getD_some]
          cases entries.mapM fun entry => Model.ofEntry source entry.1 entry.2 <;> rfl

/-- An accepted document gives a model for each of its entries, put one after another. -/
theorem ofValue_eq_ok (h : ofValue source document = .ok manifest) :
    ∃ models, List.Forall₂ (fun entry model => Model.ofEntry source entry.1 entry.2 = .ok model)
        (modelEntries document) models ∧
      manifest = ⟨source, models.foldl Model.insert []⟩ := by
  obtain ⟨-, hcase | hcase⟩ | hcase := ofValue_cases source document
  · rw [hcase] at h
    cases h
  · rw [hcase] at h
    cases h
  · cases hmodels : (modelEntries document).mapM fun entry =>
        Model.ofEntry source entry.1 entry.2 with
    | error failure =>
        rw [hcase, hmodels] at h
        cases h
    | ok models =>
        rw [hcase, hmodels] at h
        cases h
        exact ⟨models, mapM_eq_ok_iff.mp hmodels, rfl⟩

/-- A document gives one model for each id. -/
theorem nodup_modelIds (h : ofValue source document = .ok manifest) : manifest.modelIds.Nodup := by
  obtain ⟨models, -, rfl⟩ := ofValue_eq_ok h
  exact Model.nodup_foldl_insert List.nodup_nil

end Manifest

end MachineRbi
