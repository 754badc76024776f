import Mathlib.Data.List.Perm.Basic
import MachineRbi.Proofs.Manifest.Keys
import MachineRbi.Proofs.Manifest.Lookup

/-!
# Entries in another order

If the keys of its models have texts apart, a document can list the models in any order: it is
accepted all the same (`ofValue_reordered`), and every id leads to the same model
(`sameModels_of_perm`).
-/

namespace MachineRbi

/-- The model under a key does not depend on the source. -/
theorem Model.ofEntry_eq_ok_congr {source : String} {key : Scalar} {entry : Value} {model : Model}
    (h : ofEntry source key entry = .ok model) (other : String) :
    ofEntry other key entry = .ok model := by
  cases hname : key.name with
  | error failure =>
      rw [ofEntry_of_error hname] at h
      cases h
  | ok id =>
      obtain ⟨machines?, hread⟩ | hread | hread := ofEntry_cases hname entry
      all_goals rw [hread] at h
      · rwa [hread]
      · cases h
      · cases h

namespace Manifest

variable {source : String} {document other : Value} {entries others : Entries}
  {manifest a b : Manifest} {id : WideText} {model : Model} {models : List Model}

/-- The document has a mapping of models with these entries. -/
def Lists (document : Value) (entries : Entries) : Prop :=
  ∃ fields, document.entriesIfAny? = some fields ∧
    (fields.valueOf "models").entriesIfTruthy? = some entries

/-- What a document lists are the entries of its models. -/
theorem Lists.modelEntries_eq (h : Lists document entries) : modelEntries document = entries := by
  obtain ⟨fields, hfields, hentries⟩ := h
  rw [modelEntries, hfields, Option.getD_some, hentries, Option.getD_some]

/-- A document is accepted if each entry that it lists gives a model. -/
theorem ofValue_of_models (h : Lists document entries)
    (hmodels : List.Forall₂ (fun entry model => Model.ofEntry source entry.1 entry.2 = .ok model)
      entries models) :
    ofValue source document = .ok ⟨source, models.foldl Model.insert []⟩ := by
  obtain ⟨fields, hfields, hentries⟩ := h
  have hlist := mapM_eq_ok_iff.mpr hmodels
  simp [ofValue, hfields, hentries, hlist, bind, Except.bind, pure, Except.pure]

/-- Entries whose keys have texts apart give models with ids of their own. -/
theorem nodup_of_namesApart (hapart : NamesApart entries)
    (hmodels : List.Forall₂ (fun entry model => Model.ofEntry source entry.1 entry.2 = .ok model)
      entries models) : (models.map (·.id)).Nodup :=
  (namesApart_iff _ (List.forall₂_map_right_iff.mpr
    (hmodels.imp fun _ _ h => Model.name_of_ofEntry h))).mp hapart

/-- If a document with keys apart is accepted, then so is one that lists the same entries in another
order, and it gives the same models in another order. -/
theorem ofValue_reordered (hlists : Lists document entries) (hother : Lists other others)
    (hperm : others.Perm entries) (hapart : NamesApart entries)
    (h : ofValue source document = .ok manifest) (otherSource : String) :
    ∃ reordered, ofValue otherSource other = .ok reordered ∧
      reordered.models.Perm manifest.models := by
  obtain ⟨models, hmodels, rfl⟩ := ofValue_eq_ok h
  rw [hlists.modelEntries_eq] at hmodels
  obtain ⟨reordered, hreordered, hsame⟩ := List.perm_comp_forall₂ hperm hmodels
  have hothers := hreordered.imp fun _ _ hentry =>
    Model.ofEntry_eq_ok_congr hentry otherSource
  refine ⟨_, ofValue_of_models hother hothers, ?_⟩
  have hnodup := nodup_of_namesApart hapart hmodels
  have hnodupOther : (reordered.map (·.id)).Nodup := (hsame.map _).nodup_iff.mpr hnodup
  -- With ids of their own the models stand as the entries do.
  have hlisted : models.foldl Model.insert [] = models := Model.foldl_insert_of_nodup hnodup
  have hlistedOther : reordered.foldl Model.insert [] = reordered :=
    Model.foldl_insert_of_nodup hnodupOther
  rw [hlisted, hlistedOther]
  exact hsame

/-- Under an id of its own a model is found exactly if it is listed. -/
theorem model_eq_ok_iff (hnodup : manifest.modelIds.Nodup) :
    manifest.model id = .ok model ↔ model ∈ manifest.models ∧ model.id = id := by
  constructor
  · exact mem_of_model
  · rintro ⟨hmem, rfl⟩
    exact model_eq_ok hnodup hmem

/-- The order of the models does not change what is found under an id. -/
theorem sameModels_of_perm (hnodup : a.modelIds.Nodup) (h : b.models.Perm a.models) :
    SameModels a b := by
  intro id model
  have hnodupOther : b.modelIds.Nodup := (h.map _).nodup_iff.mpr hnodup
  rw [model_eq_ok_iff hnodup, model_eq_ok_iff hnodupOther, h.mem_iff]

end Manifest

end MachineRbi
