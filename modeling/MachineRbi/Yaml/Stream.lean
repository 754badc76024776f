import MachineRbi.Text.Basic
import MachineRbi.Yaml.Token

/-!
# Streams

The bytes of a file become text in portions, and a portion is only asked for when the reader of
tokens comes to the end of the one before. What is wrong with a later portion therefore shows only
after everything in the earlier ones. `ofBytes` gives the text up to the first portion that cannot
be used, and the fault that waits there.
-/

namespace MachineRbi.Yaml

/-- The text of a document as far as it can be read. -/
structure Stream where
  text : List Char
  /-- What stops the reader behind the text; nothing if the text ends there. -/
  ending : Option Fault
  deriving DecidableEq, Repr

/-- A character that may stand in a document: no control but tab and line ends, no surrogate and
no end of a plane. -/
def isPermitted (c : Char) : Bool :=
  let point := c.toNat
  point = 9 || point = 10 || point = 13 || 32 ≤ point && point ≤ 0x7E || point = 0x85 ||
    0xA0 ≤ point && point ≤ 0xD7FF || 0xE000 ≤ point && point ≤ 0xFFFD || 0x10000 ≤ point

/-- The number of bytes of a character that starts with this byte; none does with some. -/
def characterLength (first : Nat) : Nat :=
  if 0xC2 ≤ first && first ≤ 0xDF then 2
  else if 0xE0 ≤ first && first ≤ 0xEF then 3
  else if 0xF0 ≤ first && first ≤ 0xF4 then 4
  else 0

/-- The byte can come second in a character that starts with the first one. -/
def followsFirst (first second : Nat) : Bool :=
  0x80 ≤ second && second < 0xC0 &&
    !(first = 0xE0 && second < 0xA0 || first = 0xED && 0xA0 ≤ second ||
      first = 0xF0 && second < 0x90 || first = 0xF4 && 0x90 ≤ second)

/-- The bytes are the start of a character and not all of it. -/
def isUnfinished : List Nat → Bool
  | [] => false
  | [first] => 1 < characterLength first
  | first :: second :: rest =>
    rest.length + 2 < characterLength first && followsFirst first second &&
      rest.all fun byte => 0x80 ≤ byte && byte < 0xC0

/-- The number of bytes at the end of a portion that belong to a character of the next one. -/
def unfinishedLength (bytes : ByteArray) : Nat :=
  let last := fun count => (bytes.extract (bytes.size - count) bytes.size).toList.map UInt8.toNat
  ([1, 2, 3].find? fun count => count ≤ bytes.size && isUnfinished (last count)).getD 0

/-- A file that is being read. -/
structure Source where
  bytes : ByteArray
  /-- The number of bytes that have been taken. -/
  taken : Nat
  /-- Bytes that have been taken and start a character. -/
  partBytes : ByteArray
  /-- A carriage return that may get a line feed behind it. -/
  heldReturn : Bool
  /-- Characters that have not been handed out. -/
  waiting : List Char
  /-- The bytes and the characters of the last portion. -/
  lastPortion : Nat × Nat

namespace Source

/-- A file of which nothing has been read. -/
def ofBytes (bytes : ByteArray) : Source :=
  ⟨bytes, 0, .empty, false, [], (0, 0)⟩

/-- The number of bytes to take when so many characters are wanted: 8192, or more where the last
portion had several bytes for a character. -/
def portionSize (source : Source) (wanted : Nat) : Nat :=
  let (bytes, characters) := source.lastPortion
  let guess := if characters < bytes then wanted * bytes / characters else wanted
  max 8192 guess

/-- Takes a portion of bytes and turns it into characters. The answer also says whether the file
goes on. -/
def load (source : Source) (wanted : Nat) : Except Fault (Source × Bool) := do
  let stop := min (source.taken + source.portionSize wanted) source.bytes.size
  let fresh := source.bytes.extract source.taken stop
  let final := fresh.isEmpty
  let bytes := source.partBytes ++ fresh
  let kept := bytes.size - (if final then 0 else unfinishedLength bytes)
  let some decoded := String.fromUTF8? (bytes.extract 0 kept) | throw .undecodable
  let characters := (if source.heldReturn then ['\r'] else []) ++ decoded.toList
  let holds := !final && characters.getLast? = some '\r'
  let text := Text.unifyLineEnds (if holds then characters.dropLast else characters)
  let next : Source := { source with
    taken := stop, partBytes := bytes.extract kept bytes.size, heldReturn := holds
    waiting := source.waiting ++ text, lastPortion := (fresh.size, text.length) }
  return (next, !(final && text.isEmpty))

/-- Loads portions until so many characters wait or the file ends. -/
def fill (wanted : Nat) : Nat → Source → Except Fault Source
  | 0, source => .ok source
  | fuel + 1, source => do
    if wanted ≤ source.waiting.length then return source
    let (next, goesOn) ← source.load (wanted - source.waiting.length)
    if goesOn then fill wanted fuel next else return next

/-- The next 4096 characters, or fewer at the end of the file. -/
def read (source : Source) : Except Fault (List Char × Source) := do
  let source ← fill 4096 (source.bytes.size + 2) source
  return (source.waiting.take 4096, { source with waiting := source.waiting.drop 4096 })

/-- The portions of text from here on. -/
def texts : Nat → Source → List (Except Fault (List Char))
  | 0, _ => []
  | fuel + 1, source =>
    match source.read with
    | .error fault => [.error fault]
    | .ok ([], _) => []
    | .ok (text, next) => .ok text :: texts fuel next

end Source

namespace Stream

/-- The first two portions together, as far as both can be used. A single character is not enough
for a first portion. -/
def joinFirst : List (Except Fault (List Char)) → List (Except Fault (List Char))
  | .ok first :: .ok second :: rest => .ok (first ++ second) :: rest
  | .ok _ :: .error fault :: _ => [.error fault]
  | texts => texts

/-- The text of portions up to the first that cannot be used. -/
def ofTexts : List (Except Fault (List Char)) → Stream
  | [] => ⟨[], none⟩
  | .error fault :: _ => ⟨[], some fault⟩
  | .ok text :: rest =>
    if text.all isPermitted then
      let others := ofTexts rest
      ⟨text ++ others.text, others.ending⟩
    else ⟨[], some .malformed⟩

/-- The text of a file. -/
def ofBytes (bytes : ByteArray) : Stream :=
  ofTexts (joinFirst ((Source.ofBytes bytes).texts (bytes.size + 1)))

end Stream

end MachineRbi.Yaml
