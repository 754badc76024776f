import MachineRbi.Stack
import MachineRbi.Yaml.Node
import MachineRbi.Yaml.Token

/-!
# From tokens to nodes

The tokens of a text are read once, in order, and every node gets its number when it starts, so that
an alias inside a collection can name the collection. `Document.ofTokens?` reads the only document
of a text.
-/

namespace MachineRbi.Yaml

/-- The nodes of a document, and the number of the outermost one. -/
structure Document where
  nodes : Nodes
  root : Nat

/-- What has been read, and what is in force. -/
structure NodeReader where
  tokens : List Token
  /-- What is wrong with the text behind the last token. -/
  fault : Fault
  nodes : Nodes := #[]
  /-- The numbers of the nodes that have names. -/
  anchors : List (String × Nat) := []
  /-- What the handles of tags stand for. -/
  handles : List (String × String) := []
  /-- The number of collections around the next node. -/
  depth : Nat := 0

/-- A step of reading nodes. -/
abbrev Reading := StateT NodeReader (Except Fault)

namespace Reading

/-- The text is not a document. -/
def refuse {α : Type} : Reading α :=
  throw .malformed

/-- The next token. -/
def peek : Reading Token := do
  let reader ← get
  match reader.tokens with
  | token :: _ => return token
  | [] => throw reader.fault

/-- Leaves the next token behind. -/
def skip : Reading Unit :=
  modify fun reader => { reader with tokens := reader.tokens.drop 1 }

/-- The next token is this one, and is left behind. -/
def accept (token : Token) : Reading Bool := do
  if (← peek) = token then
    skip
    return true
  return false

/-- The next token is one of these. -/
def meets (tokens : List Token) : Reading Bool := do
  return tokens.contains (← peek)

/-- Leaves the comma between two items behind. -/
def separator : Reading Unit := do
  if !(← accept .flowEntry) then refuse

/-- The anchor that comes next, if any. -/
def anchor? : Reading (Option String) := do
  match ← peek with
  | .anchor name =>
    skip
    return some name
  | _ => return none

/-- The handle and the suffix of the tag that comes next, if any. -/
def tag? : Reading (Option (Option String × String)) := do
  match ← peek with
  | .tag handle? suffix =>
    skip
    return some (handle?, suffix)
  | _ => return none

/-- The full name of a tag. -/
def expand : Option String × String → Reading String
  | (none, suffix) => return suffix
  | (some handle, suffix) => do
    match (← get).handles.lookup handle with
    | some expansion => return expansion ++ suffix
    | none => refuse

/-- The anchor and the full name of the tag before a node, in either order. -/
def properties : Reading (Option String × Option String) := do
  let (anchor, tag) ←
    match ← anchor? with
    | some anchor => pure (some anchor, ← tag?)
    | none =>
      match ← tag? with
      | some tag => pure (← anchor?, some tag)
      | none => pure (none, none)
  match tag with
  | some tag => return (anchor, some (← expand tag))
  | none => return (anchor, none)

/-- Gives a node its number, and binds it to a name that must be new. -/
def enter (name? : Option String) (node : Node) : Reading Nat := do
  let reader ← get
  let number := reader.nodes.size
  match name? with
  | none => set { reader with nodes := reader.nodes.push node }
  | some name =>
    if (reader.anchors.lookup name).isSome then refuse
    set { reader with
      nodes := reader.nodes.push node, anchors := (name, number) :: reader.anchors }
  return number

/-- The number of a node that is not written. -/
def absent : Reading Nat :=
  enter none (.scalar .null "")

/-- Reads a collection, which gets its number before its parts and is complete after them. -/
def collect [Stack] {α : Type} (name? : Option String) (node : List α → Node)
    (parts : Reading (List α)) : Reading Nat := do
  let number ← enter name? (node [])
  if Stack.nodes ≤ (← get).depth then throw .tooDeep
  modify fun reader => { reader with depth := reader.depth + 1 }
  let complete := node (← parts)
  modify fun reader => { reader with
    nodes := reader.nodes.setIfInBounds number complete, depth := reader.depth - 1 }
  return number

/-- The node that an alias names. -/
def resolve (name : String) : Reading Nat := do
  match (← get).anchors.lookup name with
  | some number => return number
  | none => refuse

/-- The type of a node with this tag; the lone exclamation mark leaves it open. -/
def typeOr (tag? : Option String) (default : Tag) : Tag :=
  match tag? with
  | none | some "!" => default
  | some name => Tag.ofName name

/-- The type of a scalar. -/
def scalarType (tag? : Option String) (plain : Bool) (text : WideText) : Tag :=
  match tag? with
  | none => if plain then Tag.ofPlain text else .str
  | some "!" => Tag.ofPlain text
  | some name => Tag.ofName name

variable [Stack]

mutual

/-- The node that comes next. Block collections count only where `block` holds, and a sequence
without indentation of its own only where `loose` holds. -/
def node (block loose : Bool) : Nat → Reading Nat
  | 0 => refuse
  | fuel + 1 => do
    if let .alias name ← peek then
      skip
      return ← resolve name
    let (anchor?, tag?) ← properties
    let token ← peek
    let sequence := Node.sequence (typeOr tag? .seq)
    let mapping := Node.mapping (typeOr tag? .map)
    if loose && token = .blockEntry then
      collect anchor? sequence (looseItems fuel)
    else
      match token with
      | .scalar text plain =>
        skip
        enter anchor? (.scalar (scalarType tag? plain text) text)
      | .flowSequenceStart => collect anchor? sequence (skip *> flowItems true fuel)
      | .flowMappingStart => collect anchor? mapping (skip *> flowEntries true fuel)
      | .blockSequenceStart =>
        if !block then refuse
        collect anchor? sequence (skip *> blockItems fuel)
      | .blockMappingStart =>
        if !block then refuse
        collect anchor? mapping (skip *> blockEntries fuel)
      | _ =>
        if anchor?.isNone && tag?.isNone then refuse
        enter anchor? (.scalar (scalarType tag? true "") "")

/-- A node, or nothing where one of these tokens follows. -/
def nodeUnless (ends : List Token) (block loose : Bool) : Nat → Reading Nat
  | 0 => refuse
  | fuel + 1 => do
    if ← meets ends then return ← absent
    node block loose fuel

/-- The items of a block sequence. -/
def blockItems : Nat → Reading (List Nat)
  | 0 => refuse
  | fuel + 1 => do
    if ← accept .blockEntry then
      let item ← nodeUnless [.blockEntry, .blockEnd] true false fuel
      return item :: (← blockItems fuel)
    if ← accept .blockEnd then return []
    refuse

/-- The items of a sequence that shares the indentation of the mapping around it. -/
def looseItems : Nat → Reading (List Nat)
  | 0 => refuse
  | fuel + 1 => do
    if ← accept .blockEntry then
      let item ← nodeUnless [.blockEntry, .key, .value, .blockEnd] true false fuel
      return item :: (← looseItems fuel)
    return []

/-- The entries of a block mapping. -/
def blockEntries : Nat → Reading (List (Nat × Nat))
  | 0 => refuse
  | fuel + 1 => do
    if ← accept .key then
      let key ← nodeUnless [.key, .value, .blockEnd] true true fuel
      let value ←
        if ← accept .value then nodeUnless [.key, .value, .blockEnd] true true fuel
        else absent
      return (key, value) :: (← blockEntries fuel)
    if ← accept .blockEnd then return []
    refuse

/-- The items between square brackets; `first` before the first of them. An item with a colon is a
mapping of one entry. -/
def flowItems (first : Bool) : Nat → Reading (List Nat)
  | 0 => refuse
  | fuel + 1 => do
    if ← accept .flowSequenceEnd then return []
    if !first then separator
    if ← meets [.key] then
      let item ← collect none (.mapping .map) do
        skip
        let key ← nodeUnless [.value, .flowEntry, .flowSequenceEnd] false false fuel
        let value ←
          if ← accept .value then nodeUnless [.flowEntry, .flowSequenceEnd] false false fuel
          else absent
        return [(key, value)]
      return item :: (← flowItems false fuel)
    if ← accept .flowSequenceEnd then return []
    let item ← node false false fuel
    return item :: (← flowItems false fuel)

/-- The entries between braces; `first` before the first of them. -/
def flowEntries (first : Bool) : Nat → Reading (List (Nat × Nat))
  | 0 => refuse
  | fuel + 1 => do
    if ← accept .flowMappingEnd then return []
    if !first then separator
    if ← accept .key then
      let key ← nodeUnless [.value, .flowEntry, .flowMappingEnd] false false fuel
      let value ←
        if ← accept .value then nodeUnless [.flowEntry, .flowMappingEnd] false false fuel
        else absent
      return (key, value) :: (← flowEntries false fuel)
    if ← accept .flowMappingEnd then return []
    let key ← node false false fuel
    let value ← absent
    return (key, value) :: (← flowEntries false fuel)

end

/-- Takes note of the directives before a document. The version may be said once and must be 1,
and every handle may be said once. -/
def directives (versioned : Bool) (said : List String) : Nat → Reading Unit
  | 0 => refuse
  | fuel + 1 => do
    match ← peek with
    | .directive (.version major _) =>
      if versioned || major ≠ 1 then refuse
      skip
      directives true said fuel
    | .directive (.handle name expansion) =>
      if said.contains name then refuse
      skip
      modify fun reader => { reader with handles := (name, expansion) :: reader.handles }
      directives versioned (name :: said) fuel
    | .directive .other =>
      skip
      directives versioned said fuel
    | _ => return ()

/-- Leaves the marks of the end of a document behind. -/
def skipEnds : Nat → Reading Unit
  | 0 => return ()
  | fuel + 1 => do
    if ← accept .documentEnd then skipEnds fuel

/-- The content of a document whose start is marked. -/
def markedContent (fuel : Nat) : Reading Nat := do
  match ← peek with
  | .directive _ | .documentStart | .documentEnd | .streamEnd => absent
  | _ => node true false fuel

/-- Nothing may follow the document. What follows is read up to its start before it is refused. -/
def finish (fuel : Nat) : Reading Unit := do
  skipEnds fuel
  if (← peek) ≠ .streamEnd then
    directives false [] fuel
    let _ ← peek
    refuse

/-- The document of a stream, if there is one. -/
def document? (fuel : Nat) : Reading (Option Nat) := do
  let root? ←
    match ← peek with
    | .streamEnd => pure none
    | .directive _ | .documentStart =>
      directives false [] fuel
      if !(← accept .documentStart) then refuse
      pure (some (← markedContent fuel))
    | _ => pure (some (← node true false fuel))
  finish fuel
  return root?

end Reading

/-- The document that tokens spell out, if there is one. -/
def Document.ofTokens? [Stack] (tokens : List Token) (fault : Fault) :
    Except Fault (Option Document) := do
  let handles := [("!", "!"), ("!!", "tag:yaml.org,2002:")]
  let fuel := 4 * tokens.length + 8
  let (root?, reader) ← (Reading.document? fuel).run { tokens, fault, handles }
  return root?.map fun root => ⟨reader.nodes, root⟩

end MachineRbi.Yaml
