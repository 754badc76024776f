import MachineRbi.Proofs.Generation.Outcome
import MachineRbi.Proofs.Manifest.Spelling

/-!
# Answers that fit together

What a manifest lists it knows: no query about a listed model or a listed state machine is answered
by saying that there is none (`consistent_of_ofValue`). An inspection is answered so exactly if it
is of a model that is not listed (`inspect_of_not_mem`, `not_isUnknown_of_inspect`).
-/

namespace MachineRbi

/-- The failure says that there is no model, or no state machine, of a name. -/
def Failure.IsUnknown : Failure → Prop
  | .complaint (.unknownModel _ _) => True
  | .complaint (.unknownMachine _ _) => True
  | _ => False

variable {failure : Failure} {source : String}

variable [Stack]

/-- What is wrong with the body of a state machine is not that it is unknown. -/
theorem Machine.not_isUnknown_of_ofBody {model name : WideText} {body : Value}
    (h : ofBody source model name body = .error failure) : ¬ failure.IsUnknown := by
  cases houtline : body.outline? with
  | none =>
      rw [ofBody_of_none houtline] at h
      cases h
      exact not_false
  | some outline =>
      obtain ⟨-, ⟨machine, hread⟩ | ⟨key, hread⟩⟩ | ⟨-, reason, hread⟩ :=
        ofBody_cases source model name houtline
      all_goals
        rw [hread] at h
        cases h
      · exact not_false
      · exact not_false

namespace Manifest

variable {manifest : Manifest} {document : Value} {id name : WideText} {names : List WideText}
  {types : TypeVocabulary}

omit [Stack] in
/-- What is wrong with a document is not that something is unknown. -/
theorem not_isUnknown_of_ofValue (h : ofValue source document = .error failure) :
    ¬ failure.IsUnknown := by
  obtain rfl | rfl | ⟨entry, -, hentry⟩ := failure_of_ofValue h
  · exact not_false
  · exact not_false
  · obtain ⟨-, rfl⟩ | ⟨id, -, rfl | rfl⟩ := Model.failure_of_ofEntry hentry <;> exact not_false

/-- A name that is listed for a model resolves as the body of one of its state machines does. -/
theorem resolve_of_mem (hnames : manifest.machineNames id = .ok names) (hname : name ∈ names) :
    ∃ model body, manifest.model id = .ok model ∧ model.machine? name = .ok (some body) ∧
      manifest.resolve id name = Machine.ofBody manifest.source id name body := by
  unfold machineNames at hnames
  obtain ⟨model, hmodel, hnames⟩ := bind_eq_ok_iff.mp hnames
  obtain ⟨bindings, hbindings, hnames⟩ := bind_eq_ok_iff.mp hnames
  cases hnames
  have hfound : (bindings.reverse.lookup name).isSome := by
    obtain ⟨binding, hmem, rfl⟩ := List.mem_map.mp hname
    rw [Option.isSome_iff_ne_none, Ne, List.lookup_eq_none_iff]
    intro hnone
    simpa using hnone binding (List.mem_reverse.mpr hmem)
  obtain ⟨body, hbody⟩ := Option.isSome_iff_exists.mp hfound
  have hmachine : model.machine? name = .ok (some body) := by
    simp [Model.machine?, hbindings, hbody, bind, Except.bind, pure, Except.pure]
  exact ⟨model, body, hmodel, hmachine, by simp [resolve, hmodel, hmachine, bind, Except.bind]⟩

/-- The answers of a manifest to questions about what it lists fit together. -/
structure Consistent (manifest : Manifest) : Prop where
  /-- No id is listed twice. -/
  nodup : manifest.modelIds.Nodup
  /-- Of every listed model it is known whether it has a list of state machines. -/
  isCapable : ∀ id ∈ manifest.modelIds, ∃ capable, manifest.isCapable id = .ok capable
  /-- The state machines of every listed model can be listed, unless a key is too long. -/
  machineNames : ∀ model ∈ manifest.models,
    (¬ model.HasLongKey ∧ ∃ names, manifest.machineNames model.id = .ok names) ∨
      (model.HasLongKey ∧ manifest.machineNames model.id = .error (.unwritable .longNumber))
  /-- Every listed state machine of a listed model is known. -/
  resolve : ∀ id ∈ manifest.modelIds, ∀ names, manifest.machineNames id = .ok names →
    ∀ name ∈ names, ∀ failure, manifest.resolve id name = .error failure → ¬ failure.IsUnknown

/-- The answers of the manifest of a document fit together. -/
theorem consistent_of_ofValue (h : ofValue source document = .ok manifest) :
    manifest.Consistent := by
  have hnodup := nodup_modelIds h
  refine ⟨hnodup, fun id hmem => Job.isCapable_of_mem hmem, ?_, ?_⟩
  · intro model hmem
    have hmodel := model_eq_ok hnodup hmem
    by_cases hlong : model.HasLongKey
    · refine .inr ⟨hlong, ?_⟩
      simp [machineNames, hmodel, Model.machines_eq_error hlong, bind, Except.bind]
    · obtain ⟨bindings, hbindings⟩ := Model.exists_machines_iff.mpr hlong
      exact .inl ⟨hlong, _, machineNames_eq_ok hmodel hbindings⟩
  · intro id _ names hnames name hname failure hfailure
    obtain ⟨model, body, -, -, hresolve⟩ := resolve_of_mem hnames hname
    rw [hresolve] at hfailure
    exact Machine.not_isUnknown_of_ofBody hfailure

/-- A model that is not listed is unknown to an inspection. -/
theorem inspect_of_not_mem (h : id ∉ manifest.modelIds) :
    manifest.inspect types id = .error (.complaint (.unknownModel manifest.source id)) := by
  simp [inspect, isCapable, model_of_not_mem h, bind, Except.bind, Except.map]

/-- An inspection fails as one of the queries that it makes. -/
theorem failure_of_inspect (h : manifest.inspect types id = .error failure) :
    manifest.isCapable id = .error failure ∨ manifest.machineNames id = .error failure ∨
      ∃ names, manifest.machineNames id = .ok names ∧
        ∃ name ∈ names, manifest.resolve id name = .error failure := by
  unfold inspect at h
  obtain hcapable | ⟨capable, -, h⟩ := bind_eq_error_iff.mp h
  · exact .inl hcapable
  · cases capable with
    | false => cases h
    | true =>
        obtain hnames | ⟨names, hnames, h⟩ := bind_eq_error_iff.mp h
        · exact .inr (.inl hnames)
        · obtain hmachines | ⟨machines, -, h⟩ := bind_eq_error_iff.mp h
          · obtain ⟨front, name, back, rfl, -, hresolve⟩ := mapM_eq_error_iff.mp hmachines
            exact .inr (.inr ⟨_, hnames, name, by simp, hresolve⟩)
          · cases h

omit [Stack] in
/-- If the state machines of a listed model cannot be listed, then one of their keys is too long. -/
theorem failure_of_machineNames (hmem : id ∈ manifest.modelIds)
    (h : manifest.machineNames id = .error failure) : failure = .unwritable .longNumber := by
  obtain ⟨model, hmodel⟩ := exists_model hmem
  unfold machineNames at h
  obtain hunknown | ⟨found, -, h⟩ := bind_eq_error_iff.mp h
  · rw [hmodel] at hunknown
    cases hunknown
  · obtain hmachines | ⟨bindings, -, h⟩ := bind_eq_error_iff.mp h
    · exact (Model.failure_of_machines hmachines).2
    · cases h

/-- Whatever else is wrong with a model, an inspection of a listed one does not say that it or one
of its state machines is unknown. -/
theorem not_isUnknown_of_inspect (hmem : id ∈ manifest.modelIds)
    (h : manifest.inspect types id = .error failure) : ¬ failure.IsUnknown := by
  obtain hcapable | hnames | ⟨names, hnames, name, hname, hresolve⟩ := failure_of_inspect h
  · obtain ⟨capable, hknown⟩ := Job.isCapable_of_mem hmem
    rw [hknown] at hcapable
    cases hcapable
  · rw [failure_of_machineNames hmem hnames]
    exact not_false
  · obtain ⟨model, body, -, -, hbody⟩ := resolve_of_mem hnames hname
    rw [hbody] at hresolve
    exact Machine.not_isUnknown_of_ofBody hresolve

end Manifest

end MachineRbi
