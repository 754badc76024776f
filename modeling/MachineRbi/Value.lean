import MachineRbi.Graph

/-!
# Document values

What a manifest or a settings file says, after its markup has been read: scalars, lists and
mappings. A mapping keeps its entries in order and has each key once. A value whose parts may be
shared or contain itself is a place in a graph; `items?` and `entries?` open both kinds alike.
-/

namespace MachineRbi

/-- A document value. -/
inductive Value where
  | scalar (value : Scalar)
  | list (items : List Value)
  | map (entries : List (Scalar × Value))
  /-- The value at a place of a graph. -/
  | shared (graph : Graph) (place : Nat)
  deriving Repr

/-- The entries of a mapping. -/
abbrev Entries := List (Scalar × Value)

/-- The bindings with this key bound to the value: in the place of the same key, which stays as it
was written first, or at the end. -/
def bindKey {κ α : Type} (same : κ → κ → Bool) (bindings : List (κ × α)) (key : κ) (value : α) :
    List (κ × α) :=
  match bindings with
  | [] => [(key, value)]
  | (other, old) :: rest =>
    if same other key then (other, value) :: rest
    else (other, old) :: bindKey same rest key value

/-- The entries with this key bound to the value. -/
def Entries.insert (entries : Entries) (key : Scalar) (value : Value) : Entries :=
  bindKey Scalar.same entries key value

/-- The value bound to a text key. -/
def Entries.get? (entries : Entries) (key : String) : Option Value :=
  let key := Scalar.str key
  (entries.find? fun entry => entry.1.same key).map (·.2)

namespace Value

/-- A text as a value. -/
abbrev str (text : WideText) : Value :=
  .scalar (.str text)

/-- Nothing, as a value. -/
abbrev null : Value :=
  .scalar .null

/-- Nothing is the default value. -/
instance : Inhabited Value :=
  ⟨null⟩

/-- A part of a graph as a value. -/
def ofLink (graph : Graph) : Link → Value
  | .scalar value => .scalar value
  | .place number => .shared graph number

/-- The mapping with these bindings; a later binding of the same key wins. -/
def ofBindings (bindings : List (Scalar × Value)) : Value :=
  .map (bindings.foldl (fun entries binding => Entries.insert entries binding.1 binding.2) [])

/-- The value stands for something rather than nothing. -/
def isTruthy : Value → Bool
  | .scalar value => value.isTruthy
  | .list items => !items.isEmpty
  | .map entries => !entries.isEmpty
  | .shared graph place => (graph[place]?).any Cell.isTruthy

/-- The value as a key, if it can be one. -/
def toKey? : Value → Option Scalar
  | .scalar value => some value
  | _ => none

/-- The entries of a mapping. -/
def entries? : Value → Option Entries
  | .map entries => some entries
  | .shared graph place =>
    match graph[place]? with
    | some (.map entries) => some (entries.map fun (key, part) => (key, ofLink graph part))
    | _ => none
  | _ => none

/-- The items of a list. -/
def items? : Value → Option (List Value)
  | .list items => some items
  | .shared graph place =>
    match graph[place]? with
    | some (.list items) => some (items.map (ofLink graph))
    | _ => none
  | _ => none

mutual

/-- The form of a value inside a list or a mapping, with so many levels to go. -/
def written : Nat → Value → Except Unwritable String
  | _, .scalar value => value.written
  | 0, _ => .error .tooDeep
  | levels + 1, .list items => do
    return "[" ++ ", ".intercalate (← writtenItems levels items) ++ "]"
  | levels + 1, .map entries => do
    return "\x7b" ++ ", ".intercalate (← writtenEntries levels entries) ++ "\x7d"
  | levels + 1, .shared graph place => graph.written (levels + 1) (.place place)

/-- The forms of the items of a list. -/
def writtenItems : Nat → List Value → Except Unwritable (List String)
  | _, [] => .ok []
  | levels, item :: rest => do
    return (← written levels item) :: (← writtenItems levels rest)

/-- The forms of the entries of a mapping. -/
def writtenEntries : Nat → List (Scalar × Value) → Except Unwritable (List String)
  | _, [] => .ok []
  | levels, (key, value) :: rest => do
    return ((← key.written) ++ ": " ++ (← written levels value)) ::
      (← writtenEntries levels rest)

end

/-- The text of a value on its own, with so many levels to go. -/
def text (levels : Nat) : Value → Except Unwritable WideText
  | .scalar value => value.text
  | value => (value.written levels).map WideText.ofString

end Value

/-- The value of a key, or nothing. -/
def Entries.valueOf (entries : Entries) (key : String) : Value :=
  (entries.get? key).getD .null

end MachineRbi
