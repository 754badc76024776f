import MachineRbi.Proofs.Manifest.Outline

/-!
# Names that cannot be written

Any value can stand in the place of a name, and its text is the name. Only an integer of more than
4300 digits as a key, and such an integer or collections that are too deep as any other value, have
no text. Whatever else is wrong with a document is a complaint about the shape of a part of it
(`Manifest.failure_of_ofValue`, `Machine.ofBody_cases`).
-/

namespace MachineRbi

variable {source : String} {failure : Failure}

/-! ## Texts -/

/-- The scalar is an integer of more than 4300 digits. -/
def Scalar.IsLong : Scalar → Prop
  | .int value => Nat.pow 10 4300 ≤ value.natAbs
  | _ => False

/-- Such an integer is as large as the first number that has more digits. -/
theorem Scalar.isLong_ofNat {number : Nat} (h : Nat.pow 10 4300 ≤ number) :
    (Scalar.int (Int.ofNat number)).IsLong :=
  h

/-- The only keys without a text are integers of more than 4300 digits. -/
theorem Scalar.name_eq_error_iff {key : Scalar} :
    key.name = .error failure ↔ key.IsLong ∧ failure = .unwritable .longNumber := by
  cases key with
  | int value =>
      unfold IsLong name text written digits
      dsimp only
      by_cases hshort : value.natAbs < Nat.pow 10 4300
      · rw [if_pos hshort]
        constructor
        · intro h
          cases h
        · rintro ⟨hlong, -⟩
          exact (Nat.not_le.mpr hshort hlong).elim
      · rw [if_neg hshort]
        constructor
        · intro h
          cases h
          exact ⟨Nat.not_lt.mp hshort, rfl⟩
        · rintro ⟨-, rfl⟩
          rfl
  | null | bool | float | str | bytes | moment =>
      constructor
      · intro h
        cases h
      · rintro ⟨hlong, -⟩
        exact hlong.elim

/-- A key has a text exactly if it is not an integer of more than 4300 digits. -/
theorem Scalar.exists_name_iff {key : Scalar} : (∃ name, key.name = .ok name) ↔ ¬ key.IsLong := by
  constructor
  · rintro ⟨name, hname⟩ hlong
    rw [name_eq_error_iff.mpr ⟨hlong, rfl⟩] at hname
    cases hname
  · intro hshort
    cases hname : key.name with
    | ok name => exact ⟨name, rfl⟩
    | error failure => exact (hshort (name_eq_error_iff.mp hname).1).elim

/-- A value without a text cannot be written. -/
theorem Value.failure_of_name {levels : Nat} {value : Value}
    (h : value.name levels = .error failure) : ∃ reason, failure = .unwritable reason := by
  unfold name at h
  cases htext : value.text levels with
  | ok text =>
      rw [htext] at h
      cases h
  | error reason =>
      rw [htext] at h
      cases h
      exact ⟨reason, rfl⟩

variable [Stack]

/-- A value that says a name without a text cannot be written. -/
theorem Value.failure_of_nameIfAny {value : Value} (h : value.nameIfAny = .error failure) :
    ∃ reason, failure = .unwritable reason := by
  unfold nameIfAny at h
  split at h
  next => cases h
  next => exact failure_of_name (map_eq_error_iff.mp h)

/-- A list that says a name without a text cannot be written. -/
theorem Value.failure_of_namesIfList? {value : Value}
    (h : value.namesIfList? = some (.error failure)) : ∃ reason, failure = .unwritable reason := by
  unfold namesIfList? at h
  split at h
  next =>
    obtain ⟨items, -, hitems⟩ := Option.map_eq_some_iff.mp h
    obtain ⟨front, item, back, -, -, hitem⟩ := mapM_eq_error_iff.mp hitems
    exact failure_of_name hitem
  next => cases h

/-! ## Documents -/

omit [Stack] in
/-- An entry gives no model if its key has no text, or if the entry or its list of state machines
has another shape. -/
theorem Model.failure_of_ofEntry {key : Scalar} {entry : Value}
    (h : ofEntry source key entry = .error failure) :
    (key.IsLong ∧ failure = .unwritable .longNumber) ∨
      ∃ id, key.name = .ok id ∧ (failure = .complaint (.entryShape source id) ∨
        failure = .complaint (.machinesShape source id)) := by
  cases hname : key.name with
  | error stopped =>
      rw [ofEntry_of_error hname] at h
      cases h
      exact .inl (Scalar.name_eq_error_iff.mp hname)
  | ok id =>
      obtain ⟨machines?, hread⟩ | hread | hread := ofEntry_cases hname entry
      all_goals
        rw [hread] at h
        cases h
      · exact .inr ⟨id, rfl, .inl rfl⟩
      · exact .inr ⟨id, rfl, .inr rfl⟩

omit [Stack] in
/-- An entry under a key that is too long gives no model. -/
theorem Model.ofEntry_of_isLong {key : Scalar} (h : key.IsLong) (source : String) (entry : Value) :
    ofEntry source key entry = .error (.unwritable .longNumber) :=
  ofEntry_of_error (Scalar.name_eq_error_iff.mpr ⟨h, rfl⟩) source entry

namespace Manifest

variable {document : Value} {entry : Scalar × Value}

/-- Reading the document comes to the entry, because every entry before it gives a model. -/
def Reaches (source : String) (document : Value) (entry : Scalar × Value) : Prop :=
  ∃ front back, modelEntries document = front ++ entry :: back ∧
    ∀ other ∈ front, ∃ model, Model.ofEntry source other.1 other.2 = .ok model

omit [Stack] in
/-- A document is not accepted if it is no mapping of this shape, or if an entry gives no model. -/
theorem failure_of_ofValue (h : ofValue source document = .error failure) :
    failure = .complaint (.topLevel source) ∨ failure = .complaint (.modelsShape source) ∨
      ∃ entry, Reaches source document entry ∧
        Model.ofEntry source entry.1 entry.2 = .error failure := by
  obtain ⟨-, hcase | hcase⟩ | hcase := ofValue_cases source document
  · rw [hcase] at h
    cases h
    exact .inl rfl
  · rw [hcase] at h
    cases h
    exact .inr (.inl rfl)
  · rw [hcase] at h
    obtain ⟨front, entry, back, hsplit, hfront, hentry⟩ :=
      mapM_eq_error_iff.mp (map_eq_error_iff.mp h)
    exact .inr (.inr ⟨entry, ⟨front, back, hsplit, hfront⟩, hentry⟩)

omit [Stack] in
/-- A document is not accepted if reading it comes to an entry that gives no model. -/
theorem ofValue_eq_error (hreaches : Reaches source document entry)
    (h : Model.ofEntry source entry.1 entry.2 = .error failure) :
    ofValue source document = .error failure := by
  obtain ⟨front, back, hsplit, hfront⟩ := hreaches
  obtain ⟨hnone, -⟩ | hcase := ofValue_cases source document
  · rw [hnone] at hsplit
    exact absurd hsplit (by simp)
  · rw [hcase]
    exact map_eq_error_iff.mpr (mapM_eq_error_iff.mpr ⟨front, entry, back, hsplit, hfront, h⟩)

end Manifest

/-! ## State machines -/

namespace Model

variable {model : Model}

/-- A state machine of the model stands under an integer of more than 4300 digits. -/
def HasLongKey (model : Model) : Prop :=
  ∃ entry ∈ model.machineEntries, entry.1.IsLong

omit [Stack] in
/-- The state machines of a model can be listed unless one of their keys is too long. -/
theorem exists_machines_iff :
    (∃ bindings, model.machines = .ok bindings) ↔ ¬ model.HasLongKey := by
  have hentry : ∀ entry : Scalar × Value,
      (∃ binding, entry.1.name.map (·, entry.2) = .ok binding) ↔ ¬ entry.1.IsLong := by
    intro entry
    rw [← Scalar.exists_name_iff]
    cases entry.1.name <;> simp [Except.map]
  rw [machines_eq, exists_mapM_eq_ok_iff]
  simp only [hentry, HasLongKey, not_exists, not_and]

omit [Stack] in
/-- If the state machines of a model cannot be listed, then one of their keys is too long. -/
theorem failure_of_machines (h : model.machines = .error failure) :
    model.HasLongKey ∧ failure = .unwritable .longNumber := by
  rw [machines_eq] at h
  obtain ⟨front, entry, back, hsplit, -, hentry⟩ := mapM_eq_error_iff.mp h
  obtain ⟨hlong, hfailure⟩ := Scalar.name_eq_error_iff.mp (map_eq_error_iff.mp hentry)
  refine ⟨⟨entry, ?_, hlong⟩, hfailure⟩
  rw [hsplit]
  exact List.mem_append_right _ List.mem_cons_self

omit [Stack] in
/-- The state machines of a model with a key that is too long cannot be listed. -/
theorem machines_eq_error (h : model.HasLongKey) :
    model.machines = .error (.unwritable .longNumber) := by
  cases hmachines : model.machines with
  | ok bindings => exact (exists_machines_iff.mp ⟨bindings, hmachines⟩ h).elim
  | error failure => rw [(failure_of_machines hmachines).2]

end Model

/-- Every part of an outline that is read has a text. The states are only read if the events are a
list. -/
structure Outline.Spelled (outline : Outline) : Prop where
  scope : ∃ scope?, outline.scope? = .ok scope?
  events : ∀ names, outline.events? = some names → ∃ events, names = .ok events
  states : outline.events?.isSome → ∀ names, outline.states? = some names →
    ∃ states, names = .ok states

namespace Machine

variable {model name : WideText} {body : Value} {outline : Outline}

/-- A body that is no mapping gives no state machine. -/
theorem ofBody_of_none (h : body.outline? = none) :
    ofBody source model name body = .error (.complaint (.machineShape source model name)) := by
  rw [ofBody_eq, h]
  rfl

/-- A body that is a mapping gives a state machine, unless a list is missing or a name that is read
has no text. -/
theorem ofBody_cases (source : String) (model name : WideText) (h : body.outline? = some outline) :
    (outline.Spelled ∧ ((∃ machine, ofBody source model name body = .ok machine) ∨
        ∃ key, ofBody source model name body =
          .error (.complaint (.namesShape source model name key)))) ∨
      (¬ outline.Spelled ∧
        ∃ reason, ofBody source model name body = .error (.unwritable reason)) := by
  rw [ofBody_eq, h]
  obtain ⟨fields, -, rfl⟩ := Option.map_eq_some_iff.mp h
  unfold ofOutline
  dsimp only
  -- The parts are read in this order, and what is wrong with one hides those behind it.
  cases hscope : (fields.valueOf "namespace").nameIfAny with
  | error failure =>
      obtain ⟨reason, rfl⟩ := Value.failure_of_nameIfAny hscope
      refine .inr ⟨fun hspelled => ?_, reason, rfl⟩
      obtain ⟨scope?, hread⟩ := hspelled.scope
      cases hread
  | ok scope? =>
      cases hevents : (fields.valueOf "events").namesIfList? with
      | none => exact .inl ⟨⟨⟨scope?, rfl⟩, nofun, nofun⟩, .inr ⟨"events", rfl⟩⟩
      | some events =>
          cases events with
          | error failure =>
              obtain ⟨reason, rfl⟩ := Value.failure_of_namesIfList? hevents
              refine .inr ⟨fun hspelled => ?_, reason, rfl⟩
              obtain ⟨events, hread⟩ := hspelled.events _ rfl
              cases hread
          | ok events =>
              cases hstates : (fields.valueOf "states").namesIfList? with
              | none =>
                  exact .inl ⟨⟨⟨scope?, rfl⟩, fun _ h => ⟨events, (Option.some.inj h).symm⟩,
                    nofun⟩, .inr ⟨"states", rfl⟩⟩
              | some states =>
                  cases states with
                  | error failure =>
                      obtain ⟨reason, rfl⟩ := Value.failure_of_namesIfList? hstates
                      refine .inr ⟨fun hspelled => ?_, reason, rfl⟩
                      obtain ⟨states, hread⟩ := hspelled.states rfl _ rfl
                      cases hread
                  | ok states =>
                      exact .inl ⟨⟨⟨scope?, rfl⟩, fun _ h => ⟨events, (Option.some.inj h).symm⟩,
                        fun _ _ h => ⟨states, (Option.some.inj h).symm⟩⟩, .inl ⟨_, rfl⟩⟩

end Machine

end MachineRbi
