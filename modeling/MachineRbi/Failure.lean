import MachineRbi.Rbi.File
import MachineRbi.Scalar
import MachineRbi.Workspace
import MachineRbi.Yaml.Token

/-!
# Failures

Everything that can stop a query or a run. Some failures are the tool's own: complaints about a
manifest or a question about it, and rejections of names. They have a wording, and the command line
reports them. The others come from the files, or from values that have an unexpected type, and end
the program.
-/

namespace MachineRbi

/-- Why a manifest or a part of it cannot be used. -/
inductive Complaint where
  | missing (path : String)
  | unparsable (path : String)
  | topLevel (source : String)
  | modelsShape (source : String)
  | entryShape (source : String) (model : WideText)
  | machinesShape (source : String) (model : WideText)
  | machineShape (source : String) (model machine : WideText)
  | namesShape (source : String) (model machine : WideText) (key : String)
  | unknownModel (source : String) (model : WideText)
  | unknownMachine (model machine : WideText)
  deriving DecidableEq, Repr

/-- The wording of a complaint. What a parser says about a text is not part of it. -/
def Complaint.message : Complaint → String
  | .missing path => "State-machine manifest not found: " ++ path
  | .unparsable path => "Cannot parse manifest " ++ path ++ ": <detail>"
  | .topLevel source => source ++ ": top level must be a mapping with a 'models' key"
  | .modelsShape source => source ++ ": 'models' must be a mapping of model id to entry"
  | .entryShape source model =>
    source ++ ": entry for model '" ++ model.shown ++ "' must be a mapping"
  | .machinesShape source model =>
    source ++ ": 'state_machines' of model '" ++ model.shown ++ "' must be a mapping"
  | .machineShape source model machine =>
    source ++ ": machine '" ++ machine.shown ++ "' of '" ++ model.shown ++ "' must be a mapping"
  | .namesShape source model machine key =>
    source ++ ": '" ++ key ++ "' of machine '" ++ machine.shown ++ "' on '" ++ model.shown ++
      "' must be a list"
  | .unknownModel source model => "Model '" ++ model.shown ++ "' is not in " ++ source
  | .unknownMachine model machine =>
    "Model '" ++ model.shown ++ "' has no state machine named '" ++ machine.shown ++ "'"

/-- Why settings cannot be used. -/
inductive SettingsFault where
  /-- A value stands in the place of a table, so no key can be looked up in it. -/
  | notTable
  /-- The keys of a table cannot be listed in order. -/
  | noKeyOrder
  /-- A number is too long to be read. -/
  | oversizedNumber
  /-- A key that nothing reads has no text, so the note about it cannot be written. Reading stops
  there; a log that reports its own faults would go on. -/
  | unwritableKey
  /-- Values are inside others beyond what the stack has room for. -/
  | tooDeep
  deriving DecidableEq, Repr

/-- Why a query or a run stops. -/
inductive Failure where
  | complaint (reason : Complaint)
  | rejection (reason : Rbi.Rejection)
  | file (fault : FileFault)
  | scalar (fault : Yaml.Fault)
  | settings (fault : SettingsFault)
  /-- A value in the place of a name cannot be written. -/
  | unwritable (reason : Unwritable)
  /-- A line cannot be encoded for the output stream. -/
  | unencodable
  deriving DecidableEq, Repr

/-- The wording of a failure of the tool itself. -/
def Failure.message? : Failure → Option String
  | .complaint reason => some reason.message
  | .rejection reason => some reason.message
  | _ => none

end MachineRbi
