import MachineRbi.Text.Wide
import MachineRbi.Yaml.Tag
import MachineRbi.Yaml.Timestamp

/-!
# Nodes of a YAML document

The nodes of a document stand in a table, and the parts of a node are numbers of the table. An alias
is the number of the node that it names, which may be one of the collections around it.
-/

namespace MachineRbi.Yaml

/-- A node of a document. -/
inductive Node where
  | scalar (tag : Tag) (text : WideText)
  | sequence (tag : Tag) (items : List Nat)
  | mapping (tag : Tag) (entries : List (Nat × Nat))
  deriving DecidableEq, Repr

/-- The nodes of a document, each under its number. -/
abbrev Nodes := Array Node

/-- The type of a node. -/
def Node.tag : Node → Tag
  | .scalar tag _ | .sequence tag _ | .mapping tag _ => tag

/-- The node with another type. -/
def Node.withTag (tag : Tag) : Node → Node
  | .scalar _ text => .scalar tag text
  | .sequence _ items => .sequence tag items
  | .mapping _ entries => .mapping tag entries

/-- The type of a node in the table. -/
def Nodes.tag (nodes : Nodes) (number : Nat) : Tag :=
  (nodes[number]?.map Node.tag).getD .unknown

/-- The characters of a plain scalar that say its type: one line end after them does not count. -/
def withoutLineEnd (cs : List Char) : List Char :=
  if cs.getLast? = some '\n' && cs ≠ ['\n'] then cs.dropLast else cs

/-- The marks of properties and aliases. One that stands alone is kept for later use and says
nothing yet. -/
def reservedMarks : List String :=
  ["!", "&", "*"]

/-- The type of a plain scalar, by the form of its text. -/
def Tag.ofPlain (plain : WideText) : Tag :=
  let cs := withoutLineEnd plain.chars
  let text := String.ofList cs
  if truthWords.contains text then .bool
  else if isFloatForm cs then .float
  else if isIntForm cs then .int
  else if text = "<<" then .merge
  else if nullWords.contains text then .null
  else if isTimestampForm cs then .timestamp
  else if text = "=" then .value
  else if reservedMarks.contains text then .unknown
  else .str

end MachineRbi.Yaml
