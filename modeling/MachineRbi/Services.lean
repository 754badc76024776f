import MachineRbi.Console
import MachineRbi.Rbi.Emitter
import MachineRbi.Settings

/-!
# Services

The parts that the commands work with, put together once from the settings that are found from the
working directory upward. Each part can be asked for under a key, and a key can be given to
another part.
-/

namespace MachineRbi

/-- What can stand under a key. -/
inductive Service where
  | settings
  | console
  | files
  | emitter
  | synthesizer
  /-- Anything else, known by its name. -/
  | named (name : String)
  deriving DecidableEq, Repr

/-- The parts of the program. -/
structure Services where
  settings : Settings
  registered : List (String × Service)
  deriving Repr

namespace Services

/-- The parts under the keys that every program has. -/
def defaults : List (String × Service) :=
  [("ConfigurationLoader", .settings), ("TelemetryPort", .console),
   ("FileSystemGateway", .files), ("RbiDeclarationEmitter", .emitter),
   ("DeclarationSynthesizer", .synthesizer)]

/-- The settings that are found from a path upward, and the notes about them. -/
def loadSettings [Stack] (workspace : Workspace) (start : Path) :
    Except Failure Settings × List LogRecord :=
  match Settings.search workspace start with
  | (.error failure, records) => (.error failure, records)
  | (.ok table, records) =>
    let (settings, warnings) := Settings.read table
    (settings.mapError Failure.settings, records ++ warnings)

/-- The parts for a workspace, and the notes about its settings. -/
def start [Stack] (workspace : Workspace) : Except Failure Services × List LogRecord :=
  let (settings, records) := loadSettings workspace Path.here
  (settings.map fun settings => ⟨settings, defaults⟩, records)

/-- Puts a part under a key, in place of the one before. -/
def register (services : Services) (key : String) (service : Service) : Services :=
  { services with registered := (key, service) :: services.registered }

/-- The part under a key. -/
def get? (services : Services) (key : String) : Option Service :=
  services.registered.lookup key

/-- The wording for a key that has no part. -/
def missingMessage (key : String) : String :=
  "Dependency '" ++ key ++ "' not registered."

/-- The console of the program. -/
def console (noColor? : Option String) : Console where
  project := "AASM-RBI"
  color := "cyan"
  welcome := "State machine RBI generator online"
  noColor? := noColor?

/-- The emitter for the settings. -/
def emitter (services : Services) : Rbi.Emitter :=
  { sigil := services.settings.sigil }

end Services

end MachineRbi
