import MachineRbi.Yaml.Token
import MachineRbi.Yaml.Node

/-!
# Merged mappings

A key of the type `merge` takes the entries of other mappings into its own mapping, in front of what
stands there already. The merged mappings take in their own merges first, and keep them. A key of
the type `value` is a text like others once its mapping is read as a mapping.
-/

namespace MachineRbi.Yaml

/-- A step that changes the nodes of a document. -/
abbrev Merging := StateT Nodes (Except Fault)

namespace Merging

/-- The entries of a mapping; no other node can be merged. -/
def entries (number : Nat) : Merging (List (Nat × Nat)) := do
  match (← get)[number]? with
  | some (.mapping _ entries) => return entries
  | _ => throw .malformed

/-- Gives a mapping other entries. -/
def setEntries (number : Nat) (entries : List (Nat × Nat)) : Merging Unit :=
  modify fun nodes => nodes.setIfInBounds number (.mapping (nodes.tag number) entries)

/-- Makes a key a text if it stands for the whole of a mapping. -/
def retag (key : Nat) : Merging Unit :=
  modify fun nodes =>
    match nodes[key]? with
    | some node =>
      if node.tag = .value then nodes.setIfInBounds key (node.withTag .str) else nodes
    | none => nodes

/-- Takes the merges of a mapping into it, after those that are known. Every merge uses up an entry,
which bounds the steps. -/
def resolve : Nat → Nat → List (Nat × Nat) → Merging Unit
  | 0, _, _ => throw .malformed
  | steps + 1, number, merged => do
    let own ← entries number
    let nodes ← get
    match own.findIdx? fun entry => nodes.tag entry.1 = .merge with
    | none =>
      setEntries number (merged ++ own)
      own.forM fun entry => retag entry.1
    | some index =>
      let source := (own[index]?.map (·.2)).getD number
      setEntries number (own.eraseIdx index)
      let more ←
        match nodes[source]? with
        | some (.sequence _ items) => do
          let parts ← items.mapM fun item => do
            let _ ← entries item
            resolve steps item []
            entries item
          pure parts.reverse.flatten
        | _ => do
          let _ ← entries source
          resolve steps source []
          entries source
      resolve steps number (merged ++ more)

end Merging

/-- The number of entries in all mappings. -/
def Nodes.entryCount (nodes : Nodes) : Nat :=
  nodes.foldl (fun count node =>
    match node with
    | .mapping _ entries => count + entries.length
    | _ => count) 0

end MachineRbi.Yaml
