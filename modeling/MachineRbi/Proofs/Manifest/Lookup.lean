import MachineRbi.Proofs.Manifest.Outline

/-!
# What a query about a model reads

A run reads the outlines of the entries of the models that it does not exclude, and the source for
the wording of complaints. So two manifests that have the source in common and find entries of the
same outlines are run over alike (`Job.visitAll_congr`), whatever else they list. If they only find
the same entries they still agree on every answer that is not a failure (`compose_of_sameModels`).
-/

namespace MachineRbi

namespace Manifest

variable {a b : Manifest} {id : WideText}

/-- What is found among the first models is found whatever comes behind them. -/
theorem model_append {source : String} {front back : List Model}
    (h : id ∈ front.map (·.id)) :
    Manifest.model ⟨source, front ++ back⟩ id = Manifest.model ⟨source, front⟩ id := by
  obtain ⟨model, hmodel, hid⟩ := List.mem_map.mp h
  have hfound : (front.find? (·.id = id)).isSome := by
    rw [List.find?_isSome]
    exact ⟨model, hmodel, by simpa using hid⟩
  obtain ⟨found, hfind⟩ := Option.isSome_iff_exists.mp hfound
  simp only [Manifest.model, List.find?_append, hfind, Option.some_or]

/-- What is not found among the first models is found behind them. -/
theorem model_append_of_not_mem {source : String} {front back : List Model}
    (h : id ∉ front.map (·.id)) :
    Manifest.model ⟨source, front ++ back⟩ id = Manifest.model ⟨source, back⟩ id := by
  have hnone : front.find? (·.id = id) = none := by
    rw [List.find?_eq_none]
    intro model hmem hid
    exact h (List.mem_map.mpr ⟨model, hmem, by simpa using hid⟩)
  simp only [Manifest.model, List.find?_append, hnone, Option.none_or]

/-! ## The same entries under two sources -/

/-- The two manifests find the same entries. -/
def SameModels (a b : Manifest) : Prop :=
  ∀ id model, a.model id = .ok model ↔ b.model id = .ok model

namespace SameModels

variable {types : TypeVocabulary} {set : DeclarationSet}

/-- What is the same one way is the same the other way. -/
theorem symm (h : SameModels a b) : SameModels b a :=
  fun id model => (h id model).symm

variable [Stack]

/-- A name resolves to the same state machine. -/
theorem resolve {name : WideText} {machine : Machine} (h : SameModels a b)
    (hresolve : a.resolve id name = .ok machine) : b.resolve id name = .ok machine := by
  unfold Manifest.resolve at hresolve ⊢
  obtain ⟨model, hmodel, hresolve⟩ := bind_eq_ok_iff.mp hresolve
  obtain ⟨body?, hbody, hresolve⟩ := bind_eq_ok_iff.mp hresolve
  refine bind_eq_ok_iff.mpr ⟨model, (h id model).mp hmodel, bind_eq_ok_iff.mpr ⟨body?, hbody, ?_⟩⟩
  cases body? with
  | none => cases hresolve
  | some body => exact Machine.ofBody_eq_ok_congr hresolve b.source

omit [Stack] in
/-- A model has a list of state machines in both or in neither. -/
theorem isCapable {capable : Bool} (h : SameModels a b) (hcapable : a.isCapable id = .ok capable) :
    b.isCapable id = .ok capable := by
  unfold Manifest.isCapable at hcapable ⊢
  cases hmodel : a.model id with
  | error failure => simp [hmodel, Except.map] at hcapable
  | ok model => rwa [(h id model).mp hmodel, ← hmodel]

/-- A model has the same declarations. -/
theorem inspect (h : SameModels a b) (hinspect : a.inspect types id = .ok set) :
    b.inspect types id = .ok set := by
  unfold Manifest.inspect at hinspect ⊢
  obtain ⟨capable, hcapable, hinspect⟩ := bind_eq_ok_iff.mp hinspect
  refine bind_eq_ok_iff.mpr ⟨capable, h.isCapable hcapable, ?_⟩
  cases capable with
  | false => exact hinspect
  | true =>
      obtain ⟨names, hnames, hinspect⟩ := bind_eq_ok_iff.mp hinspect
      obtain ⟨machines, hmachines, hinspect⟩ := bind_eq_ok_iff.mp hinspect
      have hlisted : b.machineNames id = .ok names := by
        unfold machineNames at hnames ⊢
        obtain ⟨model, hmodel, hnames⟩ := bind_eq_ok_iff.mp hnames
        exact bind_eq_ok_iff.mpr ⟨model, (h id model).mp hmodel, hnames⟩
      have hresolved : names.mapM (b.resolve id) = .ok machines :=
        mapM_eq_ok_iff.mpr ((mapM_eq_ok_iff.mp hmachines).imp fun _ _ => h.resolve)
      exact bind_eq_ok_iff.mpr ⟨names, hlisted, bind_eq_ok_iff.mpr ⟨machines, hresolved, hinspect⟩⟩

end SameModels

end Manifest

namespace Job

variable {job : Job} {a b : Manifest} {modelId : WideText} {modelIds : List WideText}

/-! ## Runs -/

variable [Stack]

/-- The text that is made for a model is made from the outline of its entry. -/
theorem compose_congr (h : Manifest.SameOutline a b modelId) (hsource : a.source = b.source) :
    job.compose a modelId = job.compose b modelId := by
  simp only [compose, h.inspect_congr hsource]

omit [Stack] in
/-- Manifests that find the same entries pass over the same models. -/
theorem isProcessed_of_sameModels (h : Manifest.SameModels a b) :
    job.isProcessed a modelId = job.isProcessed b modelId := by
  rw [Bool.eq_iff_iff, isProcessed_iff, isProcessed_iff]
  exact and_congr_right fun _ => ⟨h.isCapable, h.symm.isCapable⟩

/-- From the same entries the same texts are made. -/
theorem compose_of_sameModels {set : DeclarationSet} {text : String} (h : Manifest.SameModels a b)
    (hcompose : job.compose a modelId = .ok (set, text)) :
    job.compose b modelId = .ok (set, text) := by
  obtain ⟨hinspect, hemit⟩ := compose_eq_ok_iff.mp hcompose
  exact compose_eq_ok_iff.mpr ⟨h.inspect hinspect, hemit⟩

/-- A visit reads the outline of the entry of its model, and nothing of it if the model is
excluded. -/
theorem visit_congr (h : modelId ∉ job.excluded → Manifest.SameOutline a b modelId)
    (hsource : a.source = b.source) (workspace : Workspace) :
    job.visit a workspace modelId = job.visit b workspace modelId := by
  unfold visit
  by_cases hexcluded : modelId ∈ job.excluded
  · rw [if_pos (by simpa using hexcluded), if_pos (by simpa using hexcluded)]
  · have houtline := h hexcluded
    simp only [process, houtline.isCapable_congr, compose_congr houtline hsource]

/-- A run reads the outlines of the entries of the models that are not excluded. -/
theorem visitAll_congr
    (h : ∀ modelId ∈ modelIds, modelId ∉ job.excluded → Manifest.SameOutline a b modelId)
    (hsource : a.source = b.source) (workspace : Workspace) :
    job.visitAll a workspace modelIds = job.visitAll b workspace modelIds := by
  induction modelIds generalizing workspace with
  | nil => rfl
  | cons modelId rest ih =>
      have hfirst := visit_congr (h modelId List.mem_cons_self) hsource workspace
      have hrest := ih fun other hmem => h other (List.mem_cons_of_mem _ hmem)
      simp only [visitAll, hfirst, hrest]

end Job

end MachineRbi
