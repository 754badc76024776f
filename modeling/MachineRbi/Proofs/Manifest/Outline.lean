import MachineRbi.Proofs.Manifest.Keys

/-!
# What is read of the entry of a model

Of the entry of a model only its list of state machines is read: whether it has one, the names in
it, and the outline of the body of each machine. `Model.outline?` gathers that. What else an entry
or a body says is never looked at, so entries of one outline answer every query in the same way
(`resolve_congr`, `inspect_congr`).
-/

namespace MachineRbi

variable [Stack]

/-- What is read of the entry of a model: nothing if it has no list of state machines, otherwise the
name and the outline of each of them, in order. -/
def Model.outline? (model : Model) : Option (List (Except Failure WideText × Option Outline)) :=
  model.machines?.map (·.map fun entry => (entry.1.name, entry.2.outline?))

/-- The state machines of a list of names and outlines. -/
def outlined (entries : List (Except Failure WideText × Option Outline)) :
    Except Failure (List (WideText × Option Outline)) :=
  entries.mapM fun entry => entry.1.map (·, entry.2)

omit [Stack] in
/-- The last of the state machines with a name is found in the same place among their outlines. -/
theorem lookup_reverse_map {α β : Type} (f : α → β) (bindings : List (WideText × α))
    (name : WideText) :
    (bindings.map fun binding => (binding.1, f binding.2)).reverse.lookup name =
      (bindings.reverse.lookup name).map f := by
  rw [← List.map_reverse]
  induction bindings.reverse with
  | nil => rfl
  | cons binding rest ih =>
      obtain ⟨other, value⟩ := binding
      rw [List.map_cons, List.lookup_cons, List.lookup_cons, ih]
      cases name == other <;> rfl

namespace Model

variable {a b : Model}

/-- Listing the state machines of a model reads its outline. -/
theorem map_machines (model : Model) :
    model.machines.map (·.map fun binding => (binding.1, binding.2.outline?)) =
      outlined (model.outline?.getD []) := by
  have hentries : model.outline?.getD [] =
      model.machineEntries.map fun entry => (entry.1.name, entry.2.outline?) := by
    unfold outline? machineEntries
    cases model.machines? <;> rfl
  rw [hentries, machines_eq, outlined]
  induction model.machineEntries with
  | nil => rfl
  | cons entry rest ih =>
      rw [List.map_cons, List.mapM_cons, List.mapM_cons, ← ih]
      dsimp only
      cases entry.1.name with
      | error failure => rfl
      | ok name =>
          cases rest.mapM fun entry => entry.1.name.map (·, entry.2) <;> rfl

/-- A model has a list of state machines exactly if its outline has one. -/
theorem isSome_outline? (model : Model) : model.outline?.isSome = model.machines?.isSome :=
  Option.isSome_map

/-- The names of the state machines of a model are read from its outline. -/
theorem names_congr (h : a.outline? = b.outline?) :
    a.machines.map (·.map (·.1)) = b.machines.map (·.map (·.1)) := by
  have hnames : ∀ model : Model, model.machines.map (·.map (·.1)) =
      (outlined (model.outline?.getD [])).map (·.map (·.1)) := by
    intro model
    rw [← map_machines]
    cases model.machines with
    | error failure => rfl
    | ok bindings => exact congrArg Except.ok (by simp)
  rw [hnames, hnames, h]

/-- The outline of the state machine of a name is read from the outline of the model. -/
theorem machine?_congr (h : a.outline? = b.outline?) (name : WideText) :
    (a.machine? name).map (·.map Value.outline?) =
      (b.machine? name).map (·.map Value.outline?) := by
  have hmachine : ∀ model : Model, (model.machine? name).map (·.map Value.outline?) =
      (outlined (model.outline?.getD [])).map (·.reverse.lookup name) := by
    intro model
    rw [← map_machines, machine?]
    cases model.machines with
    | error failure => rfl
    | ok bindings => exact congrArg Except.ok (lookup_reverse_map _ bindings name).symm
  rw [hmachine, hmachine, h]

end Model

namespace Manifest

/-! ## Queries -/

variable {a b : Manifest} {id : WideText}

/-- The manifests find nothing under the id in the same way, or entries of one outline. -/
def SameOutline (a b : Manifest) (id : WideText) : Prop :=
  (a.model id).map Model.outline? = (b.model id).map Model.outline?

namespace SameOutline

/-- The same entry has the same outline. -/
theorem of_model (h : a.model id = b.model id) : SameOutline a b id :=
  congrArg (Except.map Model.outline?) h

/-- Entries of one outline are found in both manifests or in neither. -/
theorem cases (h : SameOutline a b id) :
    (∃ failure, a.model id = .error failure ∧ b.model id = .error failure) ∨
      ∃ model other, a.model id = .ok model ∧ b.model id = .ok other ∧
        model.outline? = other.outline? := by
  unfold SameOutline at h
  cases hmodel : a.model id with
  | error failure =>
      rw [hmodel] at h
      exact .inl ⟨failure, rfl, map_eq_error_iff.mp h.symm⟩
  | ok model =>
      cases hother : b.model id with
      | error failure =>
          rw [hmodel, hother] at h
          cases h
      | ok other =>
          rw [hmodel, hother] at h
          exact .inr ⟨model, other, rfl, rfl, Except.ok.inj h⟩

/-- Whether a model has a list of state machines is read from its outline. -/
theorem isCapable_congr (h : SameOutline a b id) : a.isCapable id = b.isCapable id := by
  unfold isCapable
  obtain ⟨failure, hmodel, hother⟩ | ⟨model, other, hmodel, hother, houtline⟩ := h.cases
  · rw [hmodel, hother]
  · rw [hmodel, hother]
    simp only [Except.map, ← Model.isSome_outline?, houtline]

/-- The names of the state machines of a model are read from its outline. -/
theorem machineNames_congr (h : SameOutline a b id) : a.machineNames id = b.machineNames id := by
  unfold machineNames
  obtain ⟨failure, hmodel, hother⟩ | ⟨model, other, hmodel, hother, houtline⟩ := h.cases
  · rw [hmodel, hother]
  · rw [hmodel, hother]
    exact Model.names_congr houtline

/-- The state machine of a name is read from the outline of its model. -/
theorem resolve_congr (h : SameOutline a b id) (hsource : a.source = b.source) (name : WideText) :
    a.resolve id name = b.resolve id name := by
  unfold resolve
  obtain ⟨failure, hmodel, hother⟩ | ⟨model, other, hmodel, hother, houtline⟩ := h.cases
  · rw [hmodel, hother]
    rfl
  · have hmachine := Model.machine?_congr houtline name
    rw [hmodel, hother, hsource]
    simp only [bind, Except.bind, Machine.ofBody_eq]
    cases hbody : model.machine? name with
    | error failure =>
        rw [hbody] at hmachine
        rw [map_eq_error_iff.mp hmachine.symm]
    | ok body? =>
        cases hotherBody : other.machine? name with
        | error failure =>
            rw [hbody, hotherBody] at hmachine
            cases hmachine
        | ok otherBody? =>
            rw [hbody, hotherBody] at hmachine
            -- The bodies may differ, but what is read of them does not.
            have hsame : body?.map Value.outline? = otherBody?.map Value.outline? :=
              Except.ok.inj hmachine
            match body?, otherBody?, hsame with
            | none, none, _ => rfl
            | some body, some otherBody, hsame =>
                dsimp only
                rw [Option.some.inj hsame]

/-- The declarations of a model are read from its outline. -/
theorem inspect_congr (h : SameOutline a b id) (hsource : a.source = b.source)
    (types : TypeVocabulary) : a.inspect types id = b.inspect types id := by
  have hresolve : a.resolve id = b.resolve id := funext (h.resolve_congr hsource)
  simp only [inspect, h.isCapable_congr, h.machineNames_congr, hresolve]

end SameOutline

end Manifest

end MachineRbi
