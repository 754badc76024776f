import MachineRbi.Manifest
import MachineRbi.Yaml.Document

/-!
# Registries

A registry answers queries from a manifest, which it reads from a file when it is first needed. A
manifest that has been read stays, whatever becomes of the file; after a failure the next query
reads the file again.
-/

namespace MachineRbi

/-- A source of a manifest, and the manifest once it is there. -/
structure Registry where
  source : String
  loaded? : Option Manifest := none

namespace Registry

/-- The registry of the manifest file at a path, which has not been read. -/
def atPath (path : String) : Registry :=
  ⟨path, none⟩

/-- The registry of a document. -/
def ofValue (source : String) (document : Value) : Except Failure Registry :=
  (Manifest.ofValue source document).map fun manifest => ⟨source, some manifest⟩

variable [Stack]

/-- The document in the file at a path. -/
def readDocument (workspace : Workspace) (path : String) : Except Failure Value := do
  let isFile ← (workspace.isFile (Path.ofText path)).mapError Failure.file
  if !isFile then throw (.complaint (.missing path))
  let bytes ← (workspace.readBytes (Path.ofText path)).mapError Failure.file
  match Yaml.parse bytes with
  | .ok document => return document
  | .error .undecodable => throw (.file .undecodable)
  | .error .malformed => throw (.complaint (.unparsable path))
  | .error fault => throw (.scalar fault)

/-- The manifest in the file at a path. -/
def readManifest (workspace : Workspace) (path : String) : Except Failure Manifest := do
  Manifest.ofValue path (← readDocument workspace path)

/-- The manifest, from the file if it is not there yet. -/
def manifest (registry : Registry) (workspace : Workspace) : Except Failure Manifest :=
  match registry.loaded? with
  | some manifest => .ok manifest
  | none => readManifest workspace registry.source

/-- The registry after a query, which has the manifest if it could be read. -/
def afterQuery (registry : Registry) (workspace : Workspace) : Registry :=
  match registry.manifest workspace with
  | .ok manifest => { registry with loaded? := some manifest }
  | .error _ => registry

/-- The answer to a query of the manifest. -/
def answer {α : Type} (registry : Registry) (workspace : Workspace)
    (query : Manifest → Except Failure α) : Except Failure α := do
  query (← registry.manifest workspace)

end Registry

end MachineRbi
