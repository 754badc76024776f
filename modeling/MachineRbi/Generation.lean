import MachineRbi.Console
import MachineRbi.Log
import MachineRbi.Rbi.Emitter
import MachineRbi.Registry
import MachineRbi.Report
import MachineRbi.Underscore

/-!
# Generation runs

A run goes through the models of a manifest in order and brings the interface file of each up to
date, or only looks whether it is. Models that are excluded or have no list of state machines are
passed over. The first failure ends the run; the files written before it stay.
-/

namespace MachineRbi

/-- What a run reports on the way. -/
inductive Note where
  | notice (kind : NoticeKind) (text : String)
  | log (record : LogRecord)
  deriving DecidableEq, Repr

/-- What came of a part of a run: the files after it, the notes it made, and its result. -/
structure Run (α : Type) where
  workspace : Workspace
  notes : List Note
  result : Except Failure α

/-- What a run has to do. -/
structure Job where
  types : TypeVocabulary := {}
  emitter : Rbi.Emitter
  outputDir : String
  excluded : List WideText
  /-- Only look whether the files are up to date. -/
  check : Bool := false

namespace Job

/-- The path of the interface file of a model. -/
def targetPath (job : Job) (modelId : WideText) : Path :=
  Path.ofTexts [job.outputDir, underscore modelId.shown ++ ".rbi"]

variable [Stack]

/-- The declarations of a model and the text of its interface file. -/
def compose (job : Job) (manifest : Manifest) (modelId : WideText) :
    Except Failure (DeclarationSet × String) := do
  let set ← manifest.inspect job.types modelId
  let text ← (job.emitter.emit set).mapError Failure.rejection
  return (set, text)

/-- The text in a file, if anything stands at the path. -/
def currentText (workspace : Workspace) (path : Path) : Except Failure (Option String) :=
  let text : Except FileFault (Option String) := do
    if ← workspace.pathExists path then return some (← workspace.readText path)
    return none
  text.mapError Failure.file

/-- Writes a file and makes the directories on the way to it. -/
def store (workspace : Workspace) (path : Path) (text : String) :
    Workspace × Except Failure Unit :=
  match workspace.makeDirectories path.parent true with
  | (workspace, .error fault) => (workspace, .error (.file fault))
  | (workspace, .ok ()) =>
    match workspace.writeText path text with
    | .ok written => (written, .ok ())
    | .error fault => (workspace, .error (.file fault))

/-- Brings a file up to date with a text, or looks whether it is. -/
def settle (check : Bool) (workspace : Workspace) (path : Path) (text : String) :
    Workspace × Except Failure Status :=
  match currentText workspace path with
  | .error failure => (workspace, .error failure)
  | .ok current =>
    if current = some text then (workspace, .ok .unchanged)
    else if check then (workspace, .ok .stale)
    else
      let (workspace, result) := store workspace path text
      (workspace, result.map fun _ => .written)

/-- The note about the file of a model. -/
def processedNote (modelId : WideText) (count : Nat) (path : Path) : Note :=
  .log ⟨.debug, .generation,
    modelId.shown ++ ": " ++ toString count ++ " declarations -> " ++ path.text⟩

/-- The note about a model that is passed over. -/
def skippedNote (modelId : WideText) (reason : String) : Note :=
  .log ⟨.info, .generation, "Skipping " ++ modelId.shown ++ ": " ++ reason⟩

/-- The part of a run for a model that is not passed over. -/
def process (job : Job) (manifest : Manifest) (workspace : Workspace) (modelId : WideText) :
    Run Outcome :=
  match job.compose manifest modelId with
  | .error failure => ⟨workspace, [], .error failure⟩
  | .ok (set, text) =>
    let path := job.targetPath modelId
    let (workspace, result) := settle job.check workspace path text
    ⟨workspace, [processedNote modelId set.size path],
      result.map fun status => ⟨modelId, status, some path.text, set.size, ""⟩⟩

/-- The part of a run for one model. -/
def visit (job : Job) (manifest : Manifest) (workspace : Workspace) (modelId : WideText) :
    Run Outcome :=
  if job.excluded.contains modelId then
    ⟨workspace, [skippedNote modelId "excluded by configuration"],
      .ok ⟨modelId, .skipped, none, 0, "excluded"⟩⟩
  else
    match manifest.isCapable modelId with
    | .error failure => ⟨workspace, [], .error failure⟩
    | .ok false =>
      ⟨workspace, [skippedNote modelId "no state machine"],
        .ok ⟨modelId, .skipped, none, 0, "no state machine"⟩⟩
    | .ok true => job.process manifest workspace modelId

/-- The part of a run for models in turn, up to the first failure. -/
def visitAll (job : Job) (manifest : Manifest) (workspace : Workspace) :
    List WideText → Run (List Outcome)
  | [] => ⟨workspace, [], .ok []⟩
  | modelId :: rest =>
    let first := job.visit manifest workspace modelId
    match first.result with
    | .error failure => ⟨first.workspace, first.notes, .error failure⟩
    | .ok outcome =>
      let others := job.visitAll manifest first.workspace rest
      ⟨others.workspace, first.notes ++ others.notes, others.result.map (outcome :: ·)⟩

/-- The words for where a run works, before it starts. -/
def opening (job : Job) : Note :=
  .notice .step
    ((if job.check then "Checking" else "Generating") ++ " state-machine RBI into: " ++
      job.outputDir)

/-- The warning about a file that is out of date. -/
def staleNote (outcome : Outcome) : Note :=
  .notice .warning
    ("Stale: " ++ outcome.path?.getD "None" ++ " (" ++ outcome.modelId.shown ++ ")")

/-- The number of outcomes with a status, as text. -/
def countText (report : Report) (status : Status) : String :=
  toString (report.withStatus status).length

/-- What a run says at its end. -/
def closing (job : Job) (report : Report) : List Note :=
  if job.check && report.isStale then
    (report.withStatus .stale).map staleNote ++
      [.notice .error (countText report .stale ++ " RBI file(s) out of date. Rerun generate.")]
  else
    [.notice .step
      ("Done: " ++ countText report .written ++ " written, " ++ countText report .unchanged ++
        " unchanged, " ++ countText report .skipped ++ " skipped.")]

/-- A run over the models of a manifest. -/
def runOver (job : Job) (manifest : Manifest) (workspace : Workspace) : Run Report :=
  let visited := job.visitAll manifest workspace manifest.modelIds
  match visited.result with
  | .error failure => ⟨visited.workspace, visited.notes, .error failure⟩
  | .ok outcomes =>
    let report : Report := ⟨outcomes⟩
    ⟨visited.workspace, visited.notes ++ job.closing report, .ok report⟩

/-- A run over the models of a registry. -/
def run (job : Job) (registry : Registry) (workspace : Workspace) : Run Report :=
  match registry.manifest workspace with
  | .error failure => ⟨workspace, [job.opening], .error failure⟩
  | .ok manifest =>
    let visited := job.runOver manifest workspace
    { visited with notes := job.opening :: visited.notes }

end Job

end MachineRbi
