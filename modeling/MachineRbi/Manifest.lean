import MachineRbi.Failure
import MachineRbi.Stack
import MachineRbi.Synthesis
import MachineRbi.Value

/-!
# Manifests

A manifest lists models with their state machines. Reading a document checks it down to the
mapping of state machines of every model; what a state machine says is only checked when it is
resolved. Keys of any type serve as names through their text. Where two keys have the same text,
the models keep the first place and the last entry, and a name resolves to the last state machine
that has it. A value that cannot be written cannot be a name.
-/

namespace MachineRbi

/-- A model of a manifest. It has no list of state machines at all, or one that may be empty. -/
structure Model where
  id : WideText
  machines? : Option Entries
  deriving Repr

/-- The models that a source lists, one for each id. -/
structure Manifest where
  source : String
  models : List Model
  deriving Repr

/-- The value is nothing. -/
def Value.isNull : Value → Bool
  | .scalar .null => true
  | _ => false

/-- The text of a scalar that is a name. -/
def Scalar.name (scalar : Scalar) : Except Failure WideText :=
  scalar.text.mapError Failure.unwritable

/-- The text of a value that is a name, with so many levels to go. -/
def Value.name (levels : Nat) (value : Value) : Except Failure WideText :=
  (value.text levels).mapError Failure.unwritable

/-- The entries of a mapping, of which nothing has none. -/
def Value.entriesIfAny? (value : Value) : Option Entries :=
  if value.isNull then some [] else value.entries?

/-- The entries of a mapping, of which no value that is not truthy has any. -/
def Value.entriesIfTruthy? (value : Value) : Option Entries :=
  if value.isTruthy then value.entries? else some []

namespace Model

/-- The entry of a model under a key. -/
def ofEntry (source : String) (key : Scalar) (entry : Value) : Except Failure Model := do
  let id ← key.name
  let some fields := entry.entriesIfAny? | throw (.complaint (.entryShape source id))
  match fields.get? "state_machines" with
  | none => return ⟨id, none⟩
  | some machines =>
    let some bindings := machines.entriesIfAny? | throw (.complaint (.machinesShape source id))
    return ⟨id, some bindings⟩

/-- The models with one more, in the place of that with the same id if there is one. -/
def insert (models : List Model) (model : Model) : List Model :=
  match models with
  | [] => [model]
  | other :: rest => if other.id = model.id then model :: rest else other :: insert rest model

/-- The state machines of a model with their names, none if it has no list of them. -/
def machines (model : Model) : Except Failure (List (WideText × Value)) :=
  (model.machines?.getD []).mapM fun (key, body) => do return (← key.name, body)

/-- The last state machine of a name. -/
def machine? (model : Model) (name : WideText) : Except Failure (Option Value) := do
  return (← model.machines).reverse.lookup name

end Model

/-- The names that a list under a key says; a key without a truthy value says none. A value of
another kind gives a complaint. -/
def namesOf [Stack] (fields : Entries) (key : String) (complaint : Complaint) :
    Except Failure (List WideText) := do
  let value := fields.valueOf key
  if !value.isTruthy then return []
  let some items := value.items? | throw (.complaint complaint)
  items.mapM (Value.name Stack.names)

/-- The state machine that a body describes. -/
def Machine.ofBody [Stack] (source : String) (model name : WideText) (body : Value) :
    Except Failure Machine := do
  let some fields := body.entriesIfTruthy?
    | throw (.complaint (.machineShape source model name))
  let scope := fields.valueOf "namespace"
  let scope? ← if scope.isNull then pure none else (scope.name Stack.scopes).map some
  let events ← namesOf fields "events" (.namesShape source model name "events")
  let states ← namesOf fields "states" (.namesShape source model name "states")
  return ⟨name, scope?, events, states⟩

namespace Manifest

/-- The manifest that a document says. -/
def ofValue (source : String) (document : Value) : Except Failure Manifest := do
  let some fields := document.entriesIfAny? | throw (.complaint (.topLevel source))
  let value := fields.valueOf "models"
  let some bindings := value.entriesIfTruthy? | throw (.complaint (.modelsShape source))
  let models ← bindings.mapM fun (key, entry) => Model.ofEntry source key entry
  return ⟨source, models.foldl Model.insert []⟩

/-- The ids of the models, in order. -/
def modelIds (manifest : Manifest) : List WideText :=
  manifest.models.map (·.id)

/-- The model with an id. -/
def model (manifest : Manifest) (id : WideText) : Except Failure Model :=
  match manifest.models.find? (·.id = id) with
  | some model => .ok model
  | none => .error (.complaint (.unknownModel manifest.source id))

/-- The model has a list of state machines, even an empty one. -/
def isCapable (manifest : Manifest) (id : WideText) : Except Failure Bool :=
  (manifest.model id).map (·.machines?.isSome)

/-- The names of the state machines of a model, in order. -/
def machineNames (manifest : Manifest) (id : WideText) :
    Except Failure (List WideText) := do
  return (← (← manifest.model id).machines).map (·.1)

/-- The state machine of a model that has a name. -/
def resolve [Stack] (manifest : Manifest) (id name : WideText) : Except Failure Machine := do
  match ← (← manifest.model id).machine? name with
  | some body => Machine.ofBody manifest.source id name body
  | none => throw (.complaint (.unknownMachine id name))

/-- The declarations of a model; there are none without state machines. -/
def inspect [Stack] (manifest : Manifest) (types : TypeVocabulary) (id : WideText) :
    Except Failure DeclarationSet := do
  if ← manifest.isCapable id then
    let machines ← (← manifest.machineNames id).mapM (manifest.resolve id)
    return types.synthesize id machines
  else return ⟨id, []⟩

end Manifest

end MachineRbi
