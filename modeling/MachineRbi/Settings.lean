import MachineRbi.Failure
import MachineRbi.Log
import MachineRbi.Text.Basic
import MachineRbi.Toml.Document

/-!
# Settings

The settings of a project are a table in the nearest readable `pyproject.toml` on the way up from a
directory. `search` finds the table, `warnings` notes the keys in it that nothing reads, and
`ofTable` takes the options from it, where an option of the wrong type counts as missing; `read`
does both.
-/

namespace MachineRbi

/-- The options of a project. -/
structure Settings where
  manifestPath : String
  outputDir : String
  sigil : String
  excluded : List WideText
  deriving DecidableEq, Repr

/-- What an option takes part in a comparison with. -/
inductive OrderClass where
  | number
  | text
  | date
  | time
  | localTime
  | instant
  deriving DecidableEq, Repr

namespace Scalar

/-- The class of values that a scalar can be put in order with. -/
def orderClass? : Scalar → Option OrderClass
  | .bool _ | .int _ | .float _ => some .number
  | .str _ => some .text
  | .moment (.date _) => some .date
  | .moment (.time _) => some .time
  | .moment (.dateTime point) => some (if point.offset?.isSome then .instant else .localTime)
  | .null | .bytes _ => none

/-- The number of microseconds that places a moment among those of its class. -/
def momentRank : Moment → Int
  | .date day => day.dayNumber
  | .time clock => clock.microseconds
  | .dateTime point => point.instant (point.offset?.getD 0)

/-- The first number is smaller. Infinities stand at the ends, and not a number is never smaller
or greater. -/
def numberBefore (a b : Scalar) : Bool :=
  match a.ratio?, b.ratio? with
  | some (p, q), some (r, s) => p * s < r * q
  | some _, none => b = .float (.infinite false)
  | none, some _ => a = .float (.infinite true)
  | none, none => a = .float (.infinite true) && b = .float (.infinite false)

/-- The first scalar comes before the second of the same class. -/
def before (a b : Scalar) : Bool :=
  match a, b with
  | .str x, .str y => x.points < y.points
  | .moment x, .moment y => momentRank x < momentRank y
  | _, _ => numberBefore a b

/-- The scalars can be put in order with each other. -/
def areOrdered : List Scalar → Bool
  | [] | [_] => true
  | first :: rest =>
    first.orderClass?.isSome && rest.all fun other => other.orderClass? = first.orderClass?

/-- The scalars with one more, before the first that it precedes. -/
def insertSorted (scalar : Scalar) : List Scalar → List Scalar
  | [] => [scalar]
  | other :: rest =>
    if scalar.before other then scalar :: other :: rest else other :: insertSorted scalar rest

/-- The scalars in order. -/
def sort (scalars : List Scalar) : List Scalar :=
  scalars.foldl (fun sorted scalar => insertSorted scalar sorted) []

/-- The scalars without those that are the same as an earlier one. -/
def distinct (scalars : List Scalar) : List Scalar :=
  scalars.foldl (fun kept scalar =>
    if kept.any (·.same scalar) then kept else kept ++ [scalar]) []

end Scalar

namespace Settings

/-- The keys that have a meaning. -/
def knownKeys : List String :=
  ["manifest", "output_dir", "typed_sigil", "exclude_models"]

/-- The file that settings stand in. -/
def fileName : String :=
  "pyproject.toml"

/-- What counts as the keys of a value that stands in the place of a table. -/
def keysOf (value : Value) : Except SettingsFault (List Scalar) :=
  let keys? :=
    match value with
    | .scalar (.str text) => some (text.singles.map .str)
    | value =>
      match value.entries? with
      | some entries => some (entries.map (·.1))
      | none => value.items?.bind fun items => items.mapM Value.toKey?
  match keys? with
  | some keys => .ok keys
  | none => .error .noKeyOrder

/-- The note about a key that nothing reads. -/
def unknownKey (key : Scalar) : Except SettingsFault LogRecord := do
  let .ok text := key.text | throw .unwritableKey
  return ⟨.warning, .settings,
    "Configuration Warning: unknown key '" ++ text.shown ++ "' in [tool.aasm-rbi] is ignored."⟩

/-- The notes about the keys of a table that nothing reads, in the order of the keys. -/
def warnings (table : Value) : Except SettingsFault (List LogRecord) := do
  if !table.isTruthy then return []
  let keys := Scalar.distinct (← keysOf table)
  let unknown := keys.filter fun key => knownKeys.all fun known => key ≠ .str known
  if Scalar.areOrdered unknown then (Scalar.sort unknown).mapM unknownKey
  else throw .noKeyOrder

/-- The text of an option without blanks around it, or the default if nothing is left. -/
def textOption (table : Entries) (key default : String) : String :=
  match table.get? key with
  | some (.scalar (.str text)) =>
    if Text.isBlankText text.shown then default else Text.trim text.shown
  | _ => default

/-- The texts in the list of an option. -/
def textsOption (table : Entries) (key : String) : List WideText :=
  let items := ((table.get? key).bind Value.items?).getD []
  items.filterMap fun item =>
    match item with
    | .scalar (.str text) => some text
    | _ => none

/-- The options in the entries of a table. -/
def ofEntries (table : Entries) : Settings where
  manifestPath := textOption table "manifest" "sorbet/aasm_manifest.yml"
  outputDir := textOption table "output_dir" "sorbet/rails-rbi/models"
  sigil := textOption table "typed_sigil" "strong"
  excluded := textsOption table "exclude_models"

/-- The options in a table; another value has none. -/
def ofTable (table : Value) : Except SettingsFault Settings :=
  match table.entries? with
  | some entries => .ok (ofEntries entries)
  | none => .error .notTable

/-- The options in a table, and the notes about its keys. -/
def read (table : Value) : Except SettingsFault Settings × List LogRecord :=
  match warnings table with
  | .error fault => (.error fault, [])
  | .ok records => (ofTable table, records)

/-- The locations from one up to the root. -/
def upward (location : Location) : List Location :=
  (List.range (location.length + 1)).map fun n => location.take (location.length - n)

/-- The text of a location. -/
def locationText (location : Location) : String :=
  "/" ++ Path.joinNames location

/-- The value under a key of a table, or an empty table if it is missing or not truthy. -/
def subtable (table : Value) (key : String) : Except SettingsFault Value :=
  match table.entries? with
  | some entries =>
    let value := entries.valueOf key
    .ok (if value.isTruthy then value else .map [])
  | none => .error .notTable

/-- The table of this tool in a document. -/
def tableIn (document : Entries) : Except SettingsFault Value := do
  subtable (← subtable (.map document) "tool") "aasm-rbi"

/-- The note about a file that was read. -/
def loadedRecord (location : Location) : LogRecord :=
  ⟨.debug, .settings, "Loaded configuration from " ++ locationText location⟩

/-- The note about a file that could not be read. What the parser says is not part of it. -/
def unreadRecord (location : Location) : LogRecord :=
  ⟨.warning, .settings, "Could not read " ++ locationText location ++ ": <detail>"⟩

/-- Looks for the table in the directories in turn. A file that is not TOML is noted and passed
over; the first one that is decides. -/
def searchIn [Stack] (workspace : Workspace) : List Location → Except Failure Value × List LogRecord
  | [] => (.ok (.map []), [])
  | directory :: rest =>
    let location := directory ++ [fileName]
    match workspace.find? ⟨.root, location⟩ with
    | .error fault => (.error (.file fault), [])
    | .ok (some (.file bytes)) =>
      match decodeText bytes with
      | none => (.error (.file .undecodable), [])
      | some text =>
        match Toml.parse text with
        | .ok document => ((tableIn document).mapError .settings, [loadedRecord location])
        | .error .oversized => (.error (.settings .oversizedNumber), [])
        | .error .tooDeep => (.error (.settings .tooDeep), [])
        | .error .malformed =>
          let (table, records) := searchIn workspace rest
          (table, unreadRecord location :: records)
    | .ok _ => searchIn workspace rest

/-- Looks for the table from a path upward. -/
def search [Stack] (workspace : Workspace) (start : Path) : Except Failure Value × List LogRecord :=
  match workspace.resolve start with
  | .ok location => searchIn workspace (upward location)
  | .error fault => (.error (.file fault), [])

end Settings

end MachineRbi
