import MachineRbi.Text.Basic
import MachineRbi.Text.Wide

/-!
# JSON documents

JSON text in printable ASCII. Other characters are written as the escapes of their UTF-16 units, so
a character beyond the basic plane takes a surrogate pair; half of a pair is written as its own
escape. Every element of an array or an object stands on a line of its own, indented by two spaces
per level.
-/

namespace MachineRbi

/-- A JSON document; numbers do not occur in the documents of this library. -/
inductive Json where
  | null
  | bool (value : Bool)
  | str (value : WideText)
  | arr (items : List Json)
  | obj (fields : List (String × Json))
  deriving Repr

namespace Json

/-- The escape of one UTF-16 unit. -/
def escapeUnit (unit : Nat) : List Char :=
  '\\' :: 'u' :: Text.hexDigits 4 unit

/-- The written form of one character inside a JSON string. -/
def escapeChar (c : Char) : List Char :=
  match c with
  | '"' => ['\\', '"']
  | '\\' => ['\\', '\\']
  | '\n' => ['\\', 'n']
  | '\r' => ['\\', 'r']
  | '\t' => ['\\', 't']
  | '\x08' => ['\\', 'b']
  | '\x0c' => ['\\', 'f']
  | c =>
    let point := c.toNat
    if 32 ≤ point && point < 127 then [c]
    else if point < 0x10000 then escapeUnit point
    else
      escapeUnit (0xD800 + (point - 0x10000) / 0x400) ++
        escapeUnit (0xDC00 + (point - 0x10000) % 0x400)

/-- The written form of one code point inside a JSON string. -/
def escapePoint (point : Nat) : List Char :=
  if point.isValidChar then escapeChar (Char.ofNat point) else escapeUnit point

/-- A JSON string with its quotes. -/
def quoted (text : WideText) : String :=
  String.ofList ('"' :: text.points.flatMap escapePoint ++ ['"'])

/-- The blanks before an element at this level. -/
def indent (level : Nat) : String :=
  String.ofList (List.replicate (2 * level) ' ')

/-- Written elements between brackets, one on each line. -/
def enclose (opening closing : String) (level : Nat) : List String → String
  | [] => opening ++ closing
  | elements =>
    opening ++ "\n" ++ ",\n".intercalate (elements.map (indent (level + 1) ++ ·)) ++ "\n" ++
      indent level ++ closing

mutual

/-- The text of a document whose first line stands at this level. -/
def renderAt (level : Nat) : Json → String
  | .null => "null"
  | .bool true => "true"
  | .bool false => "false"
  | .str s => quoted s
  | .arr items => enclose "[" "]" level (renderItems (level + 1) items)
  | .obj fields => enclose "\x7b" "\x7d" level (renderFields (level + 1) fields)

/-- The texts of the items of an array. -/
def renderItems (level : Nat) : List Json → List String
  | [] => []
  | item :: rest => renderAt level item :: renderItems level rest

/-- The texts of the fields of an object, each after its name. -/
def renderFields (level : Nat) : List (String × Json) → List String
  | [] => []
  | (name, value) :: rest =>
    (quoted name ++ ": " ++ renderAt level value) :: renderFields level rest

end

/-- The text of a document. -/
def render (document : Json) : String :=
  renderAt 0 document

end Json

end MachineRbi
