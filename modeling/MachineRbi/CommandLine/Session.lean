import MachineRbi.CommandLine.Command
import MachineRbi.Generation
import MachineRbi.Json
import MachineRbi.Services

/-!
# Sessions

A session is one run of the program: it finds the settings, reads the command line, does what is
asked and ends with an exit code. `run` is all of it as a function from the files and the words to
the files after it, the two streams and the way it ended.
-/

namespace MachineRbi.CommandLine

/-- How a session ends. -/
inductive Ending where
  | exit (code : Nat)
  /-- The usage was asked for, and stands in the output stream. -/
  | help
  /-- The words make no command, and the usage stands in the error stream. -/
  | misuse
  /-- A failure that is not the tool's own. -/
  | crash (failure : Failure)
  deriving DecidableEq, Repr

/-- The exit code of an ending. -/
def Ending.code : Ending → Nat
  | .exit code => code
  | .help => 0
  | .misuse => 2
  | .crash _ => 1

/-- What a session leaves behind. -/
structure Session where
  workspace : Workspace
  output : Output
  ending : Ending

/-- Where log records go. -/
inductive LogMode where
  /-- The settings made a note before the command could choose. -/
  | early
  /-- Only warnings count. -/
  | normal
  /-- All records count. -/
  | verbose
  deriving DecidableEq, Repr

/-- The mode of a command, given the notes about the settings. -/
def LogMode.choose (records : List LogRecord) (verbose : Bool) : LogMode :=
  if !records.isEmpty then .early else if verbose then .verbose else .normal

/-- What a record writes. -/
def LogMode.show (mode : LogMode) (record : LogRecord) : Output :=
  let spaced := record.level.text ++ " " ++ record.channel.text ++ ": " ++ record.text ++ "\n"
  let joined := record.level.text ++ ":" ++ record.channel.text ++ ":" ++ record.text ++ "\n"
  match mode with
  | .early => if record.level = .warning then { err := joined } else {}
  | .normal => if record.level = .warning then { err := spaced } else {}
  | .verbose => { err := spaced }

/-- Outputs after each other. -/
def joinOutputs (outputs : List Output) : Output :=
  outputs.foldl Output.append {}

/-- What a note writes. -/
def showNote (console : Console) (mode : LogMode) : Note → Output
  | .notice kind text => console.notice kind text
  | .log record => mode.show record

/-- What lines write to the output stream. -/
def showLines (lines : List String) : Output :=
  joinOutputs (lines.map fun line => { out := printed line })

/-- What a failure writes, and how it ends a session. -/
def showFailure (console : Console) (failure : Failure) : Output × Ending :=
  match failure.message? with
  | some message => (console.notice .error message, .exit 2)
  | none => ({}, .crash failure)

/-- A type in a JSON document. -/
def jsonType : Option String → Json
  | some type => .str type
  | none => .null

/-- A parameter as a JSON document. -/
def jsonParameter (parameter : Parameter) : Json :=
  .obj [("name", .str parameter.name), ("type", jsonType parameter.type?),
    ("variadic_keyword_capture", .bool parameter.splat)]

/-- A declaration as a JSON document. -/
def jsonDeclaration (declaration : Declaration) : Json :=
  .obj [("name", .str declaration.name), ("return_type", jsonType declaration.returnType?),
    ("parameters", .arr (declaration.parameters.map jsonParameter))]

/-- The lines that show declarations. -/
def declarationLines (json : Bool) (set : DeclarationSet) : List WideText :=
  if json then [(Json.arr (set.declarations.map jsonDeclaration)).render]
  else set.declarations.map Declaration.line

/-- The names of the state machines of a model on one line. A hyphen says that the model has no list
of them, and a list without any text in it counts as empty. -/
def machineSummary (model : Model) : Except Failure WideText := do
  if model.machines?.isNone then return "-"
  let names := WideText.intercalate ", " ((← model.machines).map (·.1))
  return if names = "" then "(none)" else names

/-- The line for a model in a list: its id, and the names of its state machines, if any. -/
def modelLine (model : Model) : Except Failure WideText :=
  (machineSummary model).map fun summary => model.id ++ "\t" ++ summary

/-- The lines for models, and the failure that stops the list. -/
def modelLines : List Model → List WideText × Option Failure
  | [] => ([], none)
  | model :: rest =>
    match modelLine model with
    | .error failure => ([], some failure)
    | .ok line =>
      let (lines, failure?) := modelLines rest
      (line :: lines, failure?)

/-- How the program is used. -/
def usage : String :=
  "Usage: aasm-rbi COMMAND [OPTIONS]\n\n" ++
  "  generate [-m MANIFEST] [-o DIR] [--check] [-v]\n" ++
  "  inspect MODEL [-m MANIFEST] [--json] [-v]\n" ++
  "  models [-m MANIFEST]\n"

namespace Session

variable [Stack]

/-- The registry of the manifest that a command works with. -/
def registryFor (services : Services) (manifest? : Option String) : Registry :=
  .atPath (manifest?.getD services.settings.manifestPath)

/-- The job of the command `generate`. -/
def jobFor (services : Services) (outputDir? : Option String) (check : Bool) : Job where
  emitter := services.emitter
  outputDir := outputDir?.getD services.settings.outputDir
  excluded := services.settings.excluded
  check := check

/-- A session of `generate`. -/
def generate (services : Services) (console : Console) (mode : LogMode) (workspace : Workspace)
    (manifest? outputDir? : Option String) (check : Bool) : Session :=
  let greeting := (console.greeting).getD {}
  let run := (jobFor services outputDir? check).run (registryFor services manifest?) workspace
  let notes := joinOutputs (run.notes.map (showNote console mode))
  match run.result with
  | .error failure =>
    let (output, ending) := showFailure console failure
    ⟨run.workspace, joinOutputs [greeting, notes, output], ending⟩
  | .ok report =>
    let lines := (report.withStatus .written).map fun outcome =>
      "wrote " ++ outcome.path?.getD "None"
    ⟨run.workspace, joinOutputs [greeting, notes, showLines lines],
      .exit (if report.isStale then 1 else 0)⟩

/-- A session that answers a query of the manifest with lines, up to a failure or to the first line
that the output stream does not take. -/
def query (console : Console) (sink : Sink) (workspace : Workspace)
    (answer : Except Failure (List WideText × Option Failure)) : Session :=
  let (lines, failure?) :=
    match answer with
    | .ok answer => answer
    | .error failure => ([], some failure)
  let shown := showLines ((lines.takeWhile sink.takes).map WideText.shown)
  match if lines.all sink.takes then failure? else some .unencodable with
  | some failure =>
    let (output, ending) := showFailure console failure
    ⟨workspace, shown.append output, ending⟩
  | none => ⟨workspace, shown, .exit 0⟩

/-- A session of a command. -/
def execute (services : Services) (console : Console) (sink : Sink) (records : List LogRecord)
    (workspace : Workspace) : Command → Session
  | .generate manifest? outputDir? check verbose =>
    generate services console (.choose records verbose) workspace manifest? outputDir? check
  | .inspect model manifest? json _ =>
    query console sink workspace
      (((registryFor services manifest?).answer workspace (·.inspect {} model)).map
        fun set => (declarationLines json set, none))
  | .models manifest? =>
    query console sink workspace
      ((registryFor services manifest?).answer workspace fun manifest =>
        .ok (modelLines manifest.models))

/-- The session with more output in front. -/
def after (session : Session) (output : Output) : Session :=
  { session with output := output.append session.output }

/-- A session for the words of a command line. -/
def run (workspace : Workspace) (noColor? : Option String) (sink : Sink) (words : List String) :
    Session :=
  let (services, records) := Services.start workspace
  let early := joinOutputs (records.map LogMode.early.show)
  let console := Services.console noColor?
  let session : Session :=
    match services with
    | .error failure => ⟨workspace, {}, .crash failure⟩
    | .ok services =>
      match Request.parse words with
      | .perform command => execute services console sink records workspace command
      | .help => ⟨workspace, { out := usage }, .help⟩
      | .misuse => ⟨workspace, { err := usage }, .misuse⟩
  session.after early

/-- The paths that a session with these words looks at, as far as the files show. -/
def paths (workspace : Workspace) (words : List String) : List Path :=
  match (Services.start workspace).1, Request.parse words with
  | .ok services, .perform command =>
    match command with
    | .generate manifest? outputDir? check _ =>
      let registry := registryFor services manifest?
      let job := jobFor services outputDir? check
      let ids := ((registry.manifest workspace).map Manifest.modelIds).toOption.getD []
      Path.ofText registry.source :: ids.map job.targetPath
    | .inspect _ manifest? _ _ | .models manifest? =>
      [Path.ofText (registryFor services manifest?).source]
  | _, _ => []

end Session

end MachineRbi.CommandLine
