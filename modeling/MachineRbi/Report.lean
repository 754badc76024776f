import MachineRbi.Text.Wide

/-!
# Reports

What a run did with each model, in the order in which it came to them.
-/

namespace MachineRbi

/-- What a run did with a model. -/
inductive Status where
  /-- The file was missing or different and has been written. -/
  | written
  /-- The file holds the text already. -/
  | unchanged
  /-- The file is missing or different. -/
  | stale
  /-- The model was passed over. -/
  | skipped
  deriving DecidableEq, Repr

/-- The outcome of one model. A skipped model has a reason, and any other a path. -/
structure Outcome where
  modelId : WideText
  status : Status
  path? : Option String := none
  declarationCount : Nat := 0
  reason : String := ""
  deriving DecidableEq, Repr

/-- The outcomes of a run. -/
structure Report where
  outcomes : List Outcome
  deriving DecidableEq, Repr

namespace Report

/-- The outcomes with a status, in order. -/
def withStatus (report : Report) (status : Status) : List Outcome :=
  report.outcomes.filter (·.status = status)

/-- Some file is missing or out of date. -/
def isStale (report : Report) : Bool :=
  !(report.withStatus .stale).isEmpty

end Report

end MachineRbi
