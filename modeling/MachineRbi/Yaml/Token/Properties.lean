import MachineRbi.Text.Basic
import MachineRbi.Yaml.Cursor
import MachineRbi.Yaml.Token

/-!
# Anchors, tags and directives

The small tokens that say something about a node or about a document: names, tags with their
percent escapes, and the lines before a document.
-/

namespace MachineRbi.Yaml

/-- A character that may stand in a tag. -/
def isTagChar (c : Char) : Bool :=
  isNameChar c || ";/?:@&=+$,.!~*'()[]".toList.contains c

/-- A name of at least one character, and the cursor behind it. -/
def scanName (c : Cursor) : Except Fault (String × Cursor) := do
  let (name, c) := c.takeWhile isNameChar
  if name.isEmpty then throw .malformed
  return (String.ofList name, c)

/-- The name after the sign of an anchor or an alias. -/
def scanAnchor (c : Cursor) : Except Fault (String × Cursor) := do
  let (name, c) ← scanName c.step
  let ends := endsWord c.peek? || c.peek?.any "?:,]\x7d%@\x60".toList.contains
  if !ends then throw .malformed
  return (name, c)

/-- The bytes of percent escapes in a row. -/
def escapedBytes : Nat → Cursor → Except Fault (List UInt8 × Cursor)
  | 0, c => .ok ([], c)
  | fuel + 1, c => do
    if c.peek? ≠ some '%' then return ([], c)
    let digits := (c.rest.drop 1).take 2
    let some byte := if digits.length = 2 then Text.hexNumber? digits else none
      | throw .malformed
    let (more, last) ← escapedBytes fuel (c.forward 3)
    return (UInt8.ofNat byte :: more, last)

/-- The characters of a tag up to the first one that cannot stand in it. -/
def tagText : Nat → Cursor → Except Fault (List Char × Cursor)
  | 0, c => .ok ([], c)
  | fuel + 1, c => do
    let (text, c) := c.takeWhile isTagChar
    if c.peek? = some '%' then
      let (bytes, c) ← escapedBytes (c.size + 1) c
      let some decoded := String.fromUTF8? ⟨bytes.toArray⟩ | throw .malformed
      let (more, last) ← tagText fuel c
      return (text ++ decoded.toList ++ more, last)
    return (text, c)

/-- A tag text that is not empty. -/
def scanTagText (c : Cursor) : Except Fault (String × Cursor) := do
  let (text, next) ← tagText (c.size + 1) c
  if next.index = c.index then throw .malformed
  return (String.ofList text, next)

/-- A tag handle: one exclamation mark, or a name between two. -/
def scanHandle (c : Cursor) : Except Fault (String × Cursor) := do
  if c.peek? ≠ some '!' then throw .malformed
  let next := c.step
  if next.peek? = some ' ' then return ("!", next)
  let (name, next) := next.takeWhile isNameChar
  if next.peek? ≠ some '!' then throw .malformed
  return (String.ofList ('!' :: name ++ ['!']), next.step)

/-- The tag starts with a handle of more than one mark: another exclamation mark comes before the
next gap. -/
def hasNamedHandle (c : Cursor) : Bool :=
  let word := (c.rest.drop 1).takeWhile fun x => !(x = ' ' || isBreak x)
  word.contains '!'

/-- The tag that starts here. -/
def scanTag (c : Cursor) : Except Fault (Token × Cursor) := do
  let (token, c) ←
    if c.peekAt? 1 = some '<' then do
      let (suffix, next) ← scanTagText (c.forward 2)
      if next.peek? ≠ some '>' then throw .malformed
      pure (Token.tag none suffix, next.step)
    else if endsWord (c.peekAt? 1) then pure (Token.tag none "!", c.step)
    else do
      let (handle, next) ← if hasNamedHandle c then scanHandle c else pure ("!", c.step)
      let (suffix, next) ← scanTagText next
      pure (Token.tag (some handle) suffix, next)
  if !endsField c.peek? then throw .malformed
  return (token, c)

/-- A decimal number of at least one digit and at most 4300. -/
def scanNumber (c : Cursor) : Except Fault (Nat × Cursor) := do
  let (digits, c) := c.takeWhile Char.isDigit
  if digits.isEmpty then throw .malformed
  if 4300 < digits.length then throw .impossible
  return (digits.foldl (fun n d => 10 * n + (d.toNat - '0'.toNat)) 0, c)

/-- The version after its name. -/
def scanVersion (c : Cursor) : Except Fault (Directive × Cursor) := do
  let (major, c) ← scanNumber c.skipBlanks
  if c.peek? ≠ some '.' then throw .malformed
  let (minor, c) ← scanNumber c.step
  if !endsField c.peek? then throw .malformed
  return (.version major minor, c)

/-- The handle and its expansion after their name. -/
def scanHandleDirective (c : Cursor) : Except Fault (Directive × Cursor) := do
  let (handle, c) ← scanHandle c.skipBlanks
  if c.peek? ≠ some ' ' then throw .malformed
  let (expansion, c) ← scanTagText c.skipBlanks
  if !endsField c.peek? then throw .malformed
  return (.handle handle expansion, c)

/-- The directive that starts here, to the end of its line. -/
def scanDirective (c : Cursor) : Except Fault (Directive × Cursor) := do
  let (name, c) ← scanName c.step
  if !endsField c.peek? then throw .malformed
  let (directive, c) ←
    if name = "YAML" then scanVersion c
    else if name = "TAG" then scanHandleDirective c
    else pure (Directive.other, c.skipLine)
  let c := c.skipBlanks.skipComment
  if !endsLine c.peek? then throw .malformed
  return (directive, c.lineBreak.2)

end MachineRbi.Yaml
