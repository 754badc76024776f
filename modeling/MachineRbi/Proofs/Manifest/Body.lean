import MachineRbi.Proofs.Traversal
import MachineRbi.Manifest

/-!
# What is read of the body of a state machine

Of the body of a state machine the scope, the events and the states are read. `Value.outline?`
gathers that, and a body describes the state machine of its outline (`Machine.ofBody_eq`). The
source only words the complaints, so it has no part in the machine (`Machine.ofBody_eq_ok_congr`).
-/

namespace MachineRbi

variable [Stack]

/-- The name that a value says, if it says anything. -/
def Value.nameIfAny (value : Value) : Except Failure (Option WideText) :=
  if value.isNull then .ok none else (value.name Stack.scopes).map some

/-- The names that a list says, of which no value that is not truthy has any. -/
def Value.namesIfList? (value : Value) : Option (Except Failure (List WideText)) :=
  if value.isTruthy then value.items?.map (·.mapM (Value.name Stack.names)) else some (.ok [])

/-- What is read of the body of a state machine. A value of another kind in the place of a list says
no names at all. -/
structure Outline where
  scope? : Except Failure (Option WideText)
  events? : Option (Except Failure (List WideText))
  states? : Option (Except Failure (List WideText))

/-- The outline of the body of a state machine, if it is a mapping. -/
def Value.outline? (body : Value) : Option Outline :=
  body.entriesIfTruthy?.map fun fields =>
    ⟨(fields.valueOf "namespace").nameIfAny, (fields.valueOf "events").namesIfList?,
      (fields.valueOf "states").namesIfList?⟩

/-- Names that could be read, or else the complaint about the value in their place. -/
def namesOr (complaint : Complaint) (names? : Option (Except Failure (List WideText))) :
    Except Failure (List WideText) :=
  names?.getD (.error (.complaint complaint))

omit [Stack] in
/-- Names that could be read do not depend on the complaint. -/
theorem namesOr_eq_ok_congr {complaint : Complaint}
    {names? : Option (Except Failure (List WideText))} {names : List WideText}
    (h : namesOr complaint names? = .ok names) (other : Complaint) :
    namesOr other names? = .ok names := by
  cases names? with
  | none => cases h
  | some names => exact h

/-- The state machine of an outline. -/
def Machine.ofOutline (source : String) (model name : WideText) :
    Option Outline → Except Failure Machine
  | none => .error (.complaint (.machineShape source model name))
  | some outline => do
    let scope? ← outline.scope?
    let events ← namesOr (.namesShape source model name "events") outline.events?
    let states ← namesOr (.namesShape source model name "states") outline.states?
    return ⟨name, scope?, events, states⟩

/-- The names under a key are those of the list there. -/
theorem namesOf_eq (fields : Entries) (key : String) (complaint : Complaint) :
    namesOf fields key complaint = namesOr complaint (fields.valueOf key).namesIfList? := by
  unfold namesOf namesOr Value.namesIfList?
  dsimp only
  cases (fields.valueOf key).isTruthy with
  | false => rfl
  | true => cases (fields.valueOf key).items? <;> rfl

/-- The state machine that a body describes is that of its outline. -/
theorem Machine.ofBody_eq (source : String) (model name : WideText) (body : Value) :
    ofBody source model name body = ofOutline source model name body.outline? := by
  unfold ofBody Value.outline?
  cases body.entriesIfTruthy? with
  | none => rfl
  | some fields =>
      simp only [namesOf_eq, Option.map_some, ofOutline, Value.nameIfAny]
      cases (fields.valueOf "namespace").isNull <;> rfl

namespace Machine

variable {source : String} {model name : WideText} {body : Value} {machine : Machine}

/-- A machine has the name that it was resolved under. -/
theorem name_of_ofBody (h : ofBody source model name body = .ok machine) : machine.name = name := by
  rw [ofBody_eq] at h
  cases houtline : body.outline? with
  | none =>
      rw [houtline] at h
      cases h
  | some outline =>
      rw [houtline] at h
      obtain ⟨scope?, -, h⟩ := bind_eq_ok_iff.mp h
      obtain ⟨events, -, h⟩ := bind_eq_ok_iff.mp h
      obtain ⟨states, -, h⟩ := bind_eq_ok_iff.mp h
      cases h
      rfl

/-- The state machine that a body describes does not depend on the source. -/
theorem ofBody_eq_ok_congr (h : ofBody source model name body = .ok machine) (other : String) :
    ofBody other model name body = .ok machine := by
  rw [ofBody_eq] at h ⊢
  cases houtline : body.outline? with
  | none =>
      rw [houtline] at h
      cases h
  | some outline =>
      rw [houtline] at h
      obtain ⟨scope?, hscope, h⟩ := bind_eq_ok_iff.mp h
      obtain ⟨events, hevents, h⟩ := bind_eq_ok_iff.mp h
      obtain ⟨states, hstates, h⟩ := bind_eq_ok_iff.mp h
      exact bind_eq_ok_iff.mpr ⟨scope?, hscope, bind_eq_ok_iff.mpr
        ⟨events, namesOr_eq_ok_congr hevents _, bind_eq_ok_iff.mpr
          ⟨states, namesOr_eq_ok_congr hstates _, h⟩⟩⟩

end Machine

end MachineRbi
