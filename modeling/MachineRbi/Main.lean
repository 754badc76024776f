import MachineRbi.CommandLine.Session

/-!
# The program

Reads from the disk what a session looks at, runs the session on it, writes back what has changed,
and prints the two streams.
-/

namespace MachineRbi

/-- What stands on the disk at a location, if anything. -/
def probe (location : Location) : IO (Option Entry) := do
  try
    return some (.file (← IO.FS.readBinFile (Settings.locationText location)))
  catch
    | .noFileOrDirectory .. => return none
    | .inappropriateType .. => return some .directory
    | failure => throw failure

/-- The tree with what stands on the disk at a location. -/
def loadLocation (tree : FileTree) (location : Location) : IO FileTree := do
  if location.isEmpty || (tree.entry? location).isSome then return tree
  match ← probe location with
  | some entry => return tree.set location entry
  | none => return tree

/-- The tree with what stands on the disk along names from a location. -/
def loadWay (tree : FileTree) (location : Location) : List String → IO FileTree
  | [] => return tree
  | name :: rest => do
    let next := Location.step location name
    loadWay (← loadLocation tree next) next rest

/-- The workspace with what stands on the disk along a path. -/
def loadPath (workspace : Workspace) (path : Path) : IO Workspace := do
  if Workspace.hasNull path then return workspace
  return { workspace with
    tree := ← loadWay workspace.tree (workspace.start path) path.names }

/-- The working directory with the settings files from it upward. -/
def loadSettingsFiles (here : Location) : IO Workspace := do
  let tree ← loadWay .empty [] here
  let files := (Settings.upward here).map (· ++ [Settings.fileName])
  return ⟨← files.foldlM loadLocation tree, here⟩

/-- The workspace with all that a session with these words looks at; paths that only show in a file
are found once the file is loaded. -/
def loadAll [Stack] (workspace : Workspace) (words : List String) : Nat → IO Workspace
  | 0 => return workspace
  | rounds + 1 => do
    let paths := CommandLine.Session.paths workspace words
    loadAll (← paths.foldlM loadPath workspace) words rounds

/-- Writes an entry to the disk. -/
def saveEntry (place : String) : Entry → IO Unit
  | .directory => IO.FS.createDir place
  | .file bytes => IO.FS.writeBinFile place bytes

/-- Writes to the disk what differs between two trees, directories before what stands in them. -/
def saveChanges (before after : FileTree) : IO Unit := do
  for (way, entry) in after.listing [] do
    if before.entry? (Path.ofText way).names ≠ some entry then
      saveEntry ("/" ++ way) entry

end MachineRbi

open MachineRbi in
open scoped Stack in
/-- Runs the program. -/
def main (words : List String) : IO UInt32 := do
  let here := (Path.ofText (← IO.currentDir).toString).names
  let workspace ← loadAll (← loadSettingsFiles here) words 2
  let session := CommandLine.Session.run workspace (← IO.getEnv "NO_COLOR") .bytes words
  saveChanges workspace.tree session.workspace.tree
  (← IO.getStdout).putStr session.output.out
  (← IO.getStderr).putStr session.output.err
  if let .crash _ := session.ending then
    (← IO.getStderr).putStrLn "aasm-rbi: the files or the settings cannot be used"
  return session.ending.code.toUInt32
