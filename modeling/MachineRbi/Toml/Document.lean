import MachineRbi.Stack
import MachineRbi.Toml.Number

/-!
# TOML documents

A document binds keys in tables. `parse` reads the statements of a text in order into a `Draft`,
which holds the tables so far and what may no longer be done to them: a table with a header of its
own or behind a dotted key gets no second header, and a value written in place, such as an array,
is never added to.
-/

namespace MachineRbi.Toml

/-- The way from the root to a table or a value. -/
abbrev Key := List String

/-- The tables that have been read, and the limits to changing them. -/
structure Draft where
  root : Entries
  /-- Ways to values written in place. -/
  frozen : List Key
  /-- Ways to tables that can get no header. -/
  declared : List Key
  /-- Ways that will count as declared from the next header on. -/
  pending : List Key

/-- Changes the table at the end of a way, where tables that are missing are made. A list of
tables on the way stands for its last one if `lists` holds. -/
def changeTable (lists : Bool) (change : Entries → Except Fault Entries) :
    Key → Entries → Except Fault Entries
  | [], entries => change entries
  | name :: rest, entries => do
    let changed : Value ←
      match entries.get? name with
      | none => (changeTable lists change rest []).map Value.map
      | some (.map inner) => (changeTable lists change rest inner).map Value.map
      | some (.list items) =>
        match lists, items.getLast? with
        | true, some (.map inner) =>
          (changeTable lists change rest inner).map fun inner =>
            Value.list (items.dropLast ++ [.map inner])
        | _, _ => throw .malformed
      | some _ => throw .malformed
    return entries.insert (.str name) changed

/-- Binds a name that must be new in its table. -/
def bindNew (name : String) (value : Value) (entries : Entries) : Except Fault Entries :=
  if (entries.get? name).isSome then .error .malformed
  else .ok (entries ++ [(.str name, value)])

/-- The way leads into a value written in place. -/
def isFrozen (frozen : List Key) (key : Key) : Bool :=
  frozen.any fun way => way.isPrefixOf key

/-- The value is a collection. -/
def isCollection : Value → Bool
  | .list _ | .map _ => true
  | _ => false

/-- The last name of a key and the names before it. -/
def splitLast (key : Key) : Key × String :=
  (key.dropLast, key.getLast?.getD "")

/-- The rest behind space, line ends and comments. -/
def skipBetween : Nat → List Char → Except Fault (List Char)
  | 0, cs => .ok cs
  | fuel + 1, cs => do
    let rest := skipSpace cs
    if rest.head? = some '#' then skipBetween fuel (← skipComment rest)
    else return rest

variable [Stack]

/-- The weight of what is around a value, with one more array of weight 2 or one more table of
weight 3, if the stack has room for it. -/
def addWeight (weight more : Nat) : Except Fault Nat :=
  if Stack.tables < weight + more then .error .tooDeep else .ok (weight + more)

mutual

/-- A value of any kind, inside arrays and tables of a weight. -/
def readValue (weight : Nat) : Nat → Reader Value
  | 0, _ => .error .malformed
  | fuel + 1, cs =>
    match cs with
    | '[' :: rest => do
      let weight ← addWeight weight 2
      let (items, rest) ← readItems weight fuel (← skipBetween fuel rest)
      return (.list items, rest)
    | '\x7b' :: rest => do
      let weight ← addWeight weight 3
      match skipGaps rest with
      | '\x7d' :: rest => return (.map [], rest)
      | rest =>
        let (entries, rest) ← readInline weight [] [] fuel rest
        return (.map entries, rest)
    | quote :: rest =>
      if quote = '"' || quote = '\'' then do
        let (text, rest) ←
          if rest.take 2 = [quote, quote] then readMultiline fuel quote (rest.drop 2)
          else readLine fuel quote rest
        return (.str (String.ofList text), rest)
      else (readScalar cs).map fun (value, rest) => (.scalar value, rest)
    | [] => .error .malformed

/-- The items of an array up to its closing bracket. -/
def readItems (weight : Nat) : Nat → Reader (List Value)
  | 0, _ => .error .malformed
  | fuel + 1, cs =>
    match cs with
    | ']' :: rest => .ok ([], rest)
    | cs => do
      let (item, rest) ← readValue weight fuel cs
      match ← skipBetween fuel rest with
      | ']' :: rest => return ([item], rest)
      | ',' :: rest =>
        let (items, rest) ← readItems weight fuel (← skipBetween fuel rest)
        return (item :: items, rest)
      | _ => throw .malformed

/-- The bindings of a table written in place, after those that it has already. -/
def readInline (weight : Nat) (entries : Entries) (frozen : List Key) : Nat → Reader Entries
  | 0, _ => .error .malformed
  | fuel + 1, cs => do
    let (key, rest) ← readKey fuel cs
    let '=' :: rest := rest | throw .malformed
    let (value, rest) ← readValue weight fuel (skipGaps rest)
    if isFrozen frozen key then throw .malformed
    let (parent, name) := splitLast key
    let entries ← changeTable false (bindNew name value) parent entries
    match skipGaps rest with
    | '\x7d' :: rest => return (entries, rest)
    | ',' :: rest =>
      let frozen := if isCollection value then key :: frozen else frozen
      readInline weight entries frozen fuel (skipGaps rest)
    | _ => throw .malformed

end

namespace Draft

/-- Nothing read yet. -/
def empty : Draft :=
  ⟨[], [], [], []⟩

/-- Opens the table of a header. -/
def openTable (draft : Draft) (key : Key) : Except Fault Draft := do
  if draft.declared.contains key || isFrozen draft.frozen key then throw .malformed
  let root ← changeTable true .ok key draft.root
  return { draft with root, declared := key :: draft.declared }

/-- Adds a table to the list of a header. -/
def addTable (name : String) (entries : Entries) : Except Fault Entries :=
  match entries.get? name with
  | none => .ok (entries ++ [(.str name, .list [.map []])])
  | some (.list items) =>
    .ok (entries.insert (.str name) (.list (items ++ [.map []])))
  | some _ => .error .malformed

/-- Opens one more table of the list of a header; what was said about the one before it is
forgotten. -/
def openListed (draft : Draft) (key : Key) : Except Fault Draft := do
  if isFrozen draft.frozen key then throw .malformed
  let (parent, name) := splitLast key
  let root ← changeTable true (addTable name) parent draft.root
  let outside := fun way => !key.isPrefixOf way
  return { draft with
    root, frozen := draft.frozen.filter outside,
    declared := key :: draft.declared.filter outside }

/-- Binds a key in the table of a header. -/
def assign (draft : Draft) (header key : Key) (value : Value) : Except Fault Draft := do
  let passed := (List.range (key.length - 1)).map fun n => header ++ key.take (n + 1)
  if passed.any draft.declared.contains then throw .malformed
  let (parent, name) := splitLast key
  if isFrozen draft.frozen (header ++ parent) then throw .malformed
  let root ← changeTable true (bindNew name value) (header ++ parent) draft.root
  return { draft with
    root, pending := passed ++ draft.pending,
    frozen := if isCollection value then (header ++ key) :: draft.frozen else draft.frozen }

/-- Counts the tables behind dotted keys as declared. -/
def settle (draft : Draft) : Draft :=
  { draft with declared := draft.pending ++ draft.declared, pending := [] }

end Draft

/-- Reads a header behind its first bracket. -/
def readHeader (fuel : Nat) (draft : Draft) : Reader (Draft × Key) := fun cs => do
  let draft := draft.settle
  match cs with
  | '[' :: cs =>
    let (key, rest) ← readKey fuel (skipGaps cs)
    let draft ← draft.openListed key
    let ']' :: ']' :: rest := rest | throw .malformed
    return ((draft, key), rest)
  | cs =>
    let (key, rest) ← readKey fuel (skipGaps cs)
    let draft ← draft.openTable key
    let ']' :: rest := rest | throw .malformed
    return ((draft, key), rest)

/-- Reads a binding in the table of a header. -/
def readBinding (fuel : Nat) (draft : Draft) (header : Key) : Reader Draft := fun cs => do
  let (key, rest) ← readKey fuel cs
  let '=' :: rest := rest | throw .malformed
  let (value, rest) ← readValue 0 fuel (skipGaps rest)
  return (← draft.assign header key value, rest)

/-- Reads the statements of a text, one on a line. -/
def readStatements : Nat → Draft → Key → List Char → Except Fault Draft
  | 0, draft, _, _ => .ok draft
  | fuel + 1, draft, header, cs => do
    let cs := skipGaps cs
    let ((draft, header), rest) ←
      match cs with
      | '[' :: rest => readHeader fuel draft rest
      | c :: _ =>
        if isBare c || c = '"' || c = '\'' then do
          let (draft, rest) ← readBinding fuel draft header cs
          pure ((draft, header), rest)
        else if c = '#' || c = '\n' then pure ((draft, header), cs)
        else throw .malformed
      | [] => pure ((draft, header), cs)
    match ← skipComment (skipGaps rest) with
    | [] => return draft
    | '\n' :: rest => readStatements fuel draft header rest
    | _ => throw .malformed

/-- A text with every carriage return dropped that has a line feed behind it. -/
def joinLineEnds : List Char → List Char
  | [] => []
  | '\r' :: '\n' :: rest => '\n' :: joinLineEnds rest
  | c :: rest => c :: joinLineEnds rest

/-- The root table of the document in a text. -/
def parse (text : String) : Except Fault Entries := do
  let cs := joinLineEnds text.toList
  let draft ← readStatements (cs.length + 2) .empty [] cs
  return draft.root

end MachineRbi.Toml
