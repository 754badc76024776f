import MachineRbi.Scalar

/-!
# Graphs of values

Values with parts that can be shared, and that can contain themselves. Every value with parts has a
place in the graph, and a link to such a part is the number of its place. `written` follows the
links from one of them; where a value stands inside itself, a mark stands for it.
-/

namespace MachineRbi

/-- A part of a value: a scalar, or what stands at a place of the graph. -/
inductive Link where
  | scalar (value : Scalar)
  | place (number : Nat)
  deriving DecidableEq, Repr

/-- A value with parts. -/
inductive Cell where
  | list (items : List Link)
  | map (entries : List (Scalar × Link))
  | pair (first second : Link)
  | set (members : List Scalar)
  deriving DecidableEq, Repr

/-- The values with parts, each at its place. -/
abbrev Graph := Array Cell

namespace Cell

/-- What stands for a value inside itself. -/
def mark : Cell → String
  | .list _ => "[...]"
  | .map _ => "\x7b...\x7d"
  | .pair _ _ => "(...)"
  | .set _ => "set(...)"

/-- The value has parts. -/
def isTruthy : Cell → Bool
  | .list items => !items.isEmpty
  | .map entries => !entries.isEmpty
  | .pair _ _ => true
  | .set members => !members.isEmpty

/-- The form of a value, where `part` writes its parts. -/
def written (part : Link → Except Unwritable String) : Cell → Except Unwritable String
  | .list items => do
    let forms ← items.mapM part
    return "[" ++ ", ".intercalate forms ++ "]"
  | .map entries => do
    let forms ← entries.mapM fun (key, value) => do
      return (← key.written) ++ ": " ++ (← part value)
    return "\x7b" ++ ", ".intercalate forms ++ "\x7d"
  | .pair first second => do
    return "(" ++ (← part first) ++ ", " ++ (← part second) ++ ")"
  | .set [] => .ok "set()"
  | .set members => do
    let forms ← members.mapM Scalar.written
    return "\x7b" ++ ", ".intercalate forms ++ "\x7d"

end Cell

namespace Graph

/-- The form of a part inside the values at these places, with so many more levels to go. -/
def writtenInside (graph : Graph) : Nat → List Nat → Link → Except Unwritable String
  | _, _, .scalar value => value.written
  | 0, _, .place _ => .error .tooDeep
  | levels + 1, around, .place number =>
    match graph[number]? with
    | none => .error .tooDeep
    | some cell =>
      if around.contains number then .ok cell.mark
      else cell.written (writtenInside graph levels (number :: around))

/-- The form of a part, with so many levels to go. -/
def written (graph : Graph) (levels : Nat) (part : Link) : Except Unwritable String :=
  graph.writtenInside levels [] part

end Graph

end MachineRbi
