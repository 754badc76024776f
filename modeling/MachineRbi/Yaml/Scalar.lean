import MachineRbi.Scalar
import MachineRbi.Yaml.Node
import MachineRbi.Yaml.Number

/-!
# Scalars of a YAML document

The scalar that a node says. Its type decides how the text is read; the text of a mapping is that of
the first value in it that stands for the whole.
-/

namespace MachineRbi.Yaml

/-- A value in the alphabet of six-bit digits. -/
def sextet? (c : Char) : Option Nat :=
  if 'A' ≤ c && c ≤ 'Z' then some (c.toNat - 'A'.toNat)
  else if 'a' ≤ c && c ≤ 'z' then some (c.toNat - 'a'.toNat + 26)
  else if '0' ≤ c && c ≤ '9' then some (c.toNat - '0'.toNat + 52)
  else if c = '+' then some 62
  else if c = '/' then some 63
  else none

/-- The bytes that six-bit digits write, four digits for three bytes, where `count` digits of the
group have been read, `carry` is their value and `pads` equality signs came after them. Other
characters are passed over. -/
def sextets (count carry pads : Nat) : List Char → Option (List UInt8)
  | [] => if count = 0 then some [] else none
  | c :: rest =>
    if c = '=' then
      if 2 ≤ count && 4 ≤ count + pads + 1 then some [] else sextets count carry
        (if 2 ≤ count then pads + 1 else pads) rest
    else
      match sextet? c with
      | none => sextets count carry pads rest
      | some digit =>
        if count = 0 then sextets 1 digit 0 rest
        else
          let value := carry * 64 + digit
          let width := [0, 4, 2, 0].getD count 0
          (sextets ((count + 1) % 4) (value % Nat.pow 2 width) 0 rest).map
            (UInt8.ofNat (value / Nat.pow 2 width) :: ·)

/-- The bytes of a binary scalar, which is written in ASCII. -/
def readBinary (cs : List Char) : Except Fault (List UInt8) :=
  if cs.all fun c => c.toNat < 128 then
    match sextets 0 0 0 cs with
    | some bytes => .ok bytes
    | none => .error .malformed
  else .error .malformed

/-- The scalar of a type that a text says, if the type has scalars. -/
def readScalar (tag : Tag) (text : WideText) : Except Fault Scalar :=
  let cs := text.chars
  match tag with
  | .null => .ok .null
  | .bool => (readBool cs).map .bool
  | .int => (readInt cs).map .int
  | .float => (readFloat cs).map .float
  | .binary => (readBinary cs).map .bytes
  | .timestamp => (readTimestamp cs).map .moment
  | .str => .ok (.str text)
  | _ => .error .malformed

namespace Nodes

/-- The text of a node, where so many values may stand for one another. -/
def textWithin (nodes : Nodes) : Nat → Nat → Except Fault WideText
  | 0, _ => .error .tooDeep
  | steps + 1, number =>
    match nodes[number]? with
    | some (.scalar _ text) => .ok text
    | some (.mapping _ entries) =>
      match entries.find? fun entry => nodes.tag entry.1 = .value with
      | some (_, value) => textWithin nodes steps value
      | none => .error .malformed
    | _ => .error .malformed

/-- The text of a node; a value that stands for itself has none. -/
def text (nodes : Nodes) (number : Nat) : Except Fault WideText :=
  nodes.textWithin (nodes.size + 1) number

/-- The node is a mapping. -/
def isMapping (nodes : Nodes) (number : Nat) : Bool :=
  match nodes[number]? with
  | some (.mapping _ _) => true
  | _ => false

/-- The scalar that a node says. A point in time is not read from a mapping. -/
def scalar (nodes : Nodes) (number : Nat) : Except Fault Scalar := do
  let text ← nodes.text number
  let tag := nodes.tag number
  if tag = .timestamp && nodes.isMapping number then throw .notText
  readScalar tag text

end Nodes

end MachineRbi.Yaml
