import MachineRbi.Value
import MachineRbi.Yaml.Merge
import MachineRbi.Yaml.Node.Reader
import MachineRbi.Yaml.Scalar
import MachineRbi.Yaml.Token.Lexer
import Std.Data.TreeMap

/-!
# The value of a YAML document

`parse` reads the bytes of a file to the value of its only document. Scalars are read where they
are met. A collection gets its place in the graph at once and its parts later, in the order in
which the places were given; so a collection can be a part of itself, and of several faults the one
nearest to the root shows. A key that occurs again keeps its place and takes the later value.
-/

namespace MachineRbi.Yaml

/-- What has been built of a document. -/
structure Builder where
  nodes : Nodes
  /-- What has been built of every node. -/
  links : Array (Option Link)
  graph : Graph
  /-- The nodes and places of the collections without parts, the last one first. -/
  waiting : List (Nat × Nat)
  /-- More merges than these do not occur. -/
  mergeLimit : Nat

/-- A step of building a value. -/
abbrev Building := StateT Builder (Except Fault)

/-- A key of a mapping. Not a number is the same key only if it comes from the same place. -/
structure Key where
  scalar : Scalar
  origin : Nat
  deriving DecidableEq, Repr

/-- The keys are the same. -/
def Key.same (a b : Key) : Bool :=
  if a.scalar = .float .nan then a = b else a.scalar.same b.scalar

/-- The entries of a mapping while they are read, in order, and the places of those whose key is a
text. -/
structure Bindings where
  entries : Array (Key × Link) := #[]
  texts : Std.TreeMap WideText Nat := ∅

namespace Bindings

/-- The place of a key, if it occurs. -/
def place? (bindings : Bindings) (key : Key) : Option Nat :=
  match key.scalar with
  | .str text => bindings.texts[text]?
  | _ => bindings.entries.findIdx? fun entry => entry.1.same key

/-- The entries with one more. A key that occurs keeps its place and its first spelling. -/
def insert (bindings : Bindings) (key : Key) (link : Link) : Bindings :=
  match bindings.place? key with
  | some place =>
    { bindings with entries := bindings.entries.modify place fun entry => (entry.1, link) }
  | none =>
    let texts :=
      match key.scalar with
      | .str text => bindings.texts.insert text bindings.entries.size
      | _ => bindings.texts
    ⟨bindings.entries.push (key, link), texts⟩

end Bindings

/-! ## Members of a set

A set has slots, at least twice as many as members, and a whole number goes to the slot of its
remainder. Members that are whole numbers with a slot each come in the order of the slots, which for
small numbers is the ascending one; all other members come as they are written. -/

namespace Members

/-- The number of slots for so many members. -/
def slotCount (count : Nat) : Nat :=
  if count < 5 then 8 else Nat.pow 2 (Nat.log2 (2 * count) + 1)

/-- The slot of a whole number. -/
def slot? (slots : Nat) (member : Scalar) : Option Nat :=
  match member.ratio? with
  | some (p, q) => if p % q = 0 then some (p / q % slots).toNat else none
  | none => none

/-- The members in the order in which they come. -/
def inOrder (members : List Scalar) : List Scalar :=
  match members.mapM (slot? (slotCount members.length)) with
  | some slots =>
    if slots.eraseDups.length = slots.length then
      ((slots.zip members).mergeSort fun a b => a.1 ≤ b.1).map (·.2)
    else members
  | none => members

end Members

/-! ## Building -/

namespace Building

/-- The text is not a document. -/
def refuse {α : Type} : Building α :=
  throw .malformed

/-- A new place in the graph. -/
def newPlace (cell : Cell) : Building Nat :=
  modifyGet fun builder =>
    (builder.graph.size, { builder with graph := builder.graph.push cell })

/-- A place for a collection whose parts come later. -/
def openCell (number : Nat) (cell : Cell) : Building Link := do
  let place ← newPlace cell
  modify fun builder => { builder with waiting := (number, place) :: builder.waiting }
  return .place place

/-- Begins the value of a node: a scalar is complete, a collection is empty. -/
def begin (number : Nat) : Building Link := do
  let nodes := (← get).nodes
  match nodes.tag number with
  | .seq | .omap | .pairs => openCell number (.list [])
  | .map => openCell number (.map [])
  | .set => openCell number (.set [])
  | .merge | .value | .unknown => refuse
  | _ => return .scalar (← nodes.scalar number)

/-- The value of a node. Every node has one value, however often it is named. -/
def link (number : Nat) : Building Link := do
  match ((← get).links[number]?).join with
  | some link => return link
  | none =>
    let link ← begin number
    modify fun builder =>
      { builder with links := builder.links.setIfInBounds number (some link) }
    return link

/-- The origin of a number: all that are written with the word for what is not a number have one
origin, and any other its node. -/
def origin (number : Nat) : Building Nat := do
  match (← get).nodes.text number with
  | .ok text => return if isNanWord text.chars then 0 else number + 1
  | .error _ => return number + 1

/-- The key that a node says; a collection is none. -/
def key (number : Nat) : Building Key := do
  match ← link number with
  | .scalar scalar =>
    let origin ← if scalar = .float .nan then origin number else pure 0
    return ⟨scalar, origin⟩
  | .place _ => refuse

/-- Changes the nodes. -/
def merge {α : Type} (step : Merging α) : Building α := do
  let nodes ← modifyGet fun builder => (builder.nodes, { builder with nodes := #[] })
  let (result, nodes) ← (step.run nodes : Except _ _)
  modify fun builder => { builder with nodes }
  return result

/-- The entries of a mapping, merges included. -/
def bindings (number : Nat) : Building (List (Scalar × Link)) := do
  let limit := (← get).mergeLimit
  merge (Merging.resolve limit number [])
  let entries ← merge (Merging.entries number)
  let step := fun (bound : Bindings) (entry : Nat × Nat) => do
    let key ← key entry.1
    let value ← link entry.2
    return bound.insert key value
  let bound ← entries.foldlM step {}
  return bound.entries.toList.map fun (key, value) => (key.scalar, value)

/-- The items of a sequence. -/
def items (number : Nat) : Building (List Nat) := do
  match (← get).nodes[number]? with
  | some (.sequence _ items) => return items
  | _ => refuse

/-- The pair that a mapping with one entry says. -/
def pair (number : Nat) : Building Link := do
  match (← get).nodes[number]? with
  | some (.mapping _ [(key, value)]) =>
    let first ← link key
    let second ← link value
    return .place (← newPlace (.pair first second))
  | _ => refuse

/-- A collection with its parts. -/
def complete (number : Nat) : Building Cell := do
  match (← get).nodes.tag number with
  | .seq => return .list (← (← items number).mapM link)
  | .omap | .pairs => return .list (← (← items number).mapM pair)
  | .set => return .set (Members.inOrder ((← bindings number).map (·.1)))
  | _ => return .map (← bindings number)

/-- Gives the collections that wait their parts, and then those that came up meanwhile. -/
def completeAll : Nat → Building Unit
  | 0 => return ()
  | rounds + 1 => do
    let waiting := (← get).waiting.reverse
    if waiting.isEmpty then return ()
    modify fun builder => { builder with waiting := [] }
    waiting.forM fun (number, place) => do
      let cell ← complete number
      modify fun builder => { builder with graph := builder.graph.setIfInBounds place cell }
    completeAll rounds

/-- The value of a document, of which no round of collections goes without a node. -/
def document (document : Document) : Building Value := do
  let root ← link document.root
  completeAll (document.nodes.size + 1)
  return .ofLink (← get).graph root

end Building

/-- The value of a document. -/
def Document.value (document : Document) : Except Fault Value :=
  let nodes := document.nodes
  let builder : Builder :=
    ⟨nodes, Array.replicate nodes.size none, #[], [], nodes.entryCount + 1⟩
  (Building.document document).run' builder

/-- The value of the document in a file; a file without a document says nothing. -/
def parse [Stack] (bytes : ByteArray) : Except Fault Value := do
  let (tokens, fault?) := Token.ofStream (.ofBytes bytes)
  match ← Document.ofTokens? tokens (fault?.getD .malformed) with
  | some document => document.value
  | none => return .null

end MachineRbi.Yaml
