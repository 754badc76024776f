import MachineRbi.FileTree
import MachineRbi.Stack
import MachineRbi.Text.Basic

/-!
# Files seen from a working directory

A workspace is a file tree with a working directory. A path leads to a location if everything on
the way is a directory; what stands at the location itself is up to the operation. Reading turns
bytes into text, where every line end becomes a line feed, and writing stores the text as it is.
-/

namespace MachineRbi

/-- Why an operation on files fails. -/
inductive FileFault where
  | notFound
  | notDirectory
  | isDirectory
  | alreadyExists
  /-- The bytes of a file are not text. -/
  | undecodable
  /-- No path can hold a null character. -/
  | nullInPath
  /-- A name has more than 255 bytes, or a path more than 4095. -/
  | tooLong
  /-- More directories are missing on the way of a path than the stack has room for. This is no
  failure of the files. -/
  | tooDeep
  deriving DecidableEq, Repr

/-- A file tree and the working directory in it. -/
structure Workspace where
  tree : FileTree
  here : Location

/-- The text that bytes encode. -/
def decodeText (bytes : ByteArray) : Option String :=
  String.fromUTF8? bytes

/-- The location a name leads to; above the root is the root. -/
def Location.step (location : Location) (name : String) : Location :=
  if name = ".." then location.dropLast else location ++ [name]

/-- No directory can have an entry of this name. -/
def isLongName (name : String) : Bool :=
  255 < name.utf8ByteSize

/-- A location on a walk through a tree, and the tree that starts there. -/
structure Spot where
  /-- The names on the way from the root, the last one first. -/
  reversed : List String
  tree : FileTree

namespace Spot

/-- The spot at a location of a tree. -/
def ofLocation (root : FileTree) (location : Location) : Spot :=
  ⟨location.reverse, root.subtree location⟩

/-- The location of a spot. -/
def location (spot : Spot) : Location :=
  spot.reversed.reverse

/-- What stands at a spot. -/
def entry? (spot : Spot) : Option Entry :=
  if spot.reversed.isEmpty then some .directory else spot.tree.top?

/-- The spot that a name leads to. -/
def step (root : FileTree) (spot : Spot) (name : String) : Spot :=
  if name = ".." then ofLocation root spot.location.dropLast
  else ⟨name :: spot.reversed, spot.tree.child name⟩

/-- The spot that names lead to, where everything on the way must be a directory. -/
def walk (root : FileTree) (spot : Spot) : List String → Except FileFault Spot
  | [] => .ok spot
  | name :: rest =>
    match spot.entry? with
    | some .directory =>
      if isLongName name then .error .tooLong else walk root (spot.step root name) rest
    | some (.file _) => .error .notDirectory
    | none => .error .notFound

/-- The entry of the spot at a location is what stands there. -/
theorem entry?_ofLocation (root : FileTree) (location : Location) :
    Spot.entry? (ofLocation root location) = root.entry? location := by
  simp [ofLocation, entry?, FileTree.entry?]

/-- A step leads to the spot at the next location. -/
theorem step_ofLocation (root : FileTree) (location : Location) (name : String) :
    (ofLocation root location).step root name = ofLocation root (Location.step location name) := by
  by_cases up : name = ".."
  · simp [step, Location.step, up, Spot.location, ofLocation]
  · simp [step, Location.step, up, ofLocation, FileTree.subtree]

end Spot

/-- The location that names lead to, where everything on the way must be a directory. -/
def FileTree.walk (tree : FileTree) (location : Location) (names : List String) :
    Except FileFault Location :=
  ((Spot.ofLocation tree location).walk tree names).map Spot.location

/-- A walk passes a location if a directory stands there. -/
theorem FileTree.walk_cons (tree : FileTree) (location : Location) (name : String)
    (rest : List String) :
    tree.walk location (name :: rest) =
      match tree.entry? location with
      | some .directory =>
        if isLongName name then .error .tooLong
        else tree.walk (Location.step location name) rest
      | some (.file _) => .error .notDirectory
      | none => .error .notFound := by
  simp only [walk, Spot.walk, Spot.entry?_ofLocation, Spot.step_ofLocation]
  cases tree.entry? location with
  | none => rfl
  | some entry =>
    cases entry with
    | file bytes => rfl
    | directory => cases isLongName name <;> rfl

namespace Workspace

/-- Where a path starts. -/
def start (workspace : Workspace) (path : Path) : Location :=
  match path.anchor with
  | .here => workspace.here
  | _ => []

/-- A name holds a null character. -/
def hasNull (path : Path) : Bool :=
  path.names.any (·.toList.contains '\x00')

/-- The text of a path is longer than any path can be. -/
def isLongPath (path : Path) : Bool :=
  4095 < path.text.utf8ByteSize

/-- The location that a path leads to, whatever stands there. The directory above the working
directory is on the way of a path even if the working directory has been removed. -/
def locate (workspace : Workspace) (path : Path) : Except FileFault Location :=
  if hasNull path then .error .nullInPath
  else if isLongPath path then .error .tooLong
  else
    match path.anchor, path.names with
    | .here, ".." :: rest => workspace.tree.walk workspace.here.dropLast rest
    | _, names => workspace.tree.walk (workspace.start path) names

/-- The location of a path and what stands there, if anything. A path without names leads to a
directory: a root, or the working directory, even if that has been removed. -/
def lookUp (workspace : Workspace) (path : Path) : Except FileFault (Location × Option Entry) := do
  let location ← workspace.locate path
  if path.names.isEmpty then return (location, some .directory)
  return (location, workspace.tree.entry? location)

/-- The location that a path says, whether or not there is a way to it. Without a working directory
no path from it says any. -/
def resolve (workspace : Workspace) (path : Path) : Except FileFault Location :=
  if hasNull path then .error .nullInPath
  else if path.anchor = .here && workspace.tree.entry? workspace.here ≠ some .directory then
    .error .notFound
  else .ok (path.names.foldl Location.step (workspace.start path))

/-- What stands at the end of a path. -/
def entryAt (workspace : Workspace) (path : Path) : Except FileFault Entry := do
  match ← workspace.lookUp path with
  | (_, some entry) => return entry
  | (_, none) => throw .notFound

/-- What stands at the end of a path, if anything does. A path that leads nowhere is no failure,
but one that is too long is. -/
def find? (workspace : Workspace) (path : Path) : Except FileFault (Option Entry) :=
  match workspace.entryAt path with
  | .ok entry => .ok (some entry)
  | .error .tooLong => .error .tooLong
  | .error _ => .ok none

/-- Something stands at the end of a path. -/
def pathExists (workspace : Workspace) (path : Path) : Except FileFault Bool :=
  (workspace.find? path).map Option.isSome

/-- A file stands at the end of a path. -/
def isFile (workspace : Workspace) (path : Path) : Except FileFault Bool :=
  (workspace.find? path).map fun entry => entry.any (· ≠ .directory)

/-- A directory stands at the end of a path. -/
def isDirectory (workspace : Workspace) (path : Path) : Except FileFault Bool :=
  (workspace.find? path).map fun entry => entry = some .directory

/-- The bytes of a file. -/
def readBytes (workspace : Workspace) (path : Path) : Except FileFault ByteArray := do
  match ← workspace.entryAt path with
  | .directory => throw .isDirectory
  | .file bytes => return bytes

/-- The text of a file, with a line feed at every line end. -/
def readText (workspace : Workspace) (path : Path) : Except FileFault String := do
  match decodeText (← workspace.readBytes path) with
  | some text => return String.ofList (Text.unifyLineEnds text.toList)
  | none => throw .undecodable

/-- The workspace with an entry at a location. -/
def set (workspace : Workspace) (location : Location) (entry : Entry) : Workspace :=
  { workspace with tree := workspace.tree.set location entry }

/-- The workspace after a text has been written to a file, which need not exist before. -/
def writeText (workspace : Workspace) (path : Path) (text : String) :
    Except FileFault Workspace := do
  let (location, entry?) ← workspace.lookUp path
  if entry? = some .directory then throw .isDirectory
  return workspace.set location (.file text.toUTF8)

/-- The workspace with a new directory at the end of a path. -/
def makeDirectory (workspace : Workspace) (path : Path) : Except FileFault Workspace := do
  let (location, entry?) ← workspace.lookUp path
  if entry?.isSome then throw .alreadyExists
  return workspace.set location .directory

/-- Passes over a failure if a directory is there after all and may be. -/
def acceptDirectory (workspace : Workspace) (path : Path) (existOk : Bool) (fault : FileFault) :
    Except FileFault Unit := do
  if existOk && (← workspace.isDirectory path) then return ()
  throw fault

/-- Makes a directory at names from an anchor, given in reverse, and those missing on the way to
it, of which there can be so many. What has been made stays even if the rest fails. -/
def makeWay (anchor : Anchor) (existOk : Bool) (workspace : Workspace) (missing : Nat) :
    List String → Workspace × Except FileFault Unit
  | [] =>
    let path : Path := ⟨anchor, []⟩
    match workspace.makeDirectory path with
    | .ok made => (made, .ok ())
    | .error .notFound => (workspace, .error .notFound)
    | .error fault => (workspace, workspace.acceptDirectory path existOk fault)
  | name :: rest =>
    let path : Path := ⟨anchor, (name :: rest).reverse⟩
    match workspace.makeDirectory path with
    | .ok made => (made, .ok ())
    | .error .notFound =>
      if missing ≤ 1 then (workspace, .error .tooDeep)
      else
        match makeWay anchor true workspace (missing - 1) rest with
        | (workspace, .error fault) => (workspace, .error fault)
        | (workspace, .ok ()) =>
          match workspace.makeDirectory path with
          | .ok made => (made, .ok ())
          | .error .notFound => (workspace, .error .notFound)
          | .error fault => (workspace, workspace.acceptDirectory path existOk fault)
    | .error fault => (workspace, workspace.acceptDirectory path existOk fault)

/-- Makes a directory and those missing on the way to it. One that exists is a failure unless
`existOk` holds. -/
def makeDirectories [Stack] (workspace : Workspace) (path : Path) (existOk : Bool) :
    Workspace × Except FileFault Unit :=
  makeWay path.anchor existOk workspace Stack.missing path.names.reverse

end Workspace

end MachineRbi
