import MachineRbi.Yaml.Stream
import MachineRbi.Yaml.Token.Block
import MachineRbi.Yaml.Token.Plain
import MachineRbi.Yaml.Token.Properties
import MachineRbi.Yaml.Token.Quoted

/-!
# From text to tokens

A text is read one token at a time. Whether a scalar is the key of a mapping shows only at the
colon after it, so the place of every token that could be such a key is remembered until the colon
comes, the line ends, or the key grows too long; the tokens that open the mapping are then put in
at that place. Outside brackets, indentation opens and closes collections. Where the text goes
wrong, the tokens before the first that could still be a key come with the fault.
-/

namespace MachineRbi.Yaml

/-- A token that turns out to be a key if a colon follows. -/
structure PossibleKey where
  /-- The number of tokens before it. -/
  place : Nat
  /-- It stands where only a key can stand. -/
  required : Bool
  cursor : Cursor

/-- What has been read, and what is open. -/
structure Lexer where
  cursor : Cursor
  /-- What stops the reader behind the text; nothing if the text ends there. -/
  ending : Option Fault
  /-- The tokens that have been read, the last one first. -/
  tokens : List Token
  /-- The number of tokens. -/
  count : Nat
  /-- The number of open brackets. -/
  flow : Nat
  /-- The column of the innermost block collection, `-1` outside of all. -/
  indent : Int
  /-- The columns of the block collections around it. -/
  outer : List Int
  /-- A key may start here. -/
  allowKey : Bool
  /-- The possible key of every level of brackets. -/
  keys : List (Nat × PossibleKey)

namespace Lexer

/-- Before the first token. -/
def start (stream : Stream) : Lexer :=
  let c := Cursor.start stream.text
  { cursor := if c.peek? = some '\uFEFF' then c.step else c
    ending := stream.ending
    tokens := [], count := 0, flow := 0, indent := -1, outer := [], allowKey := true, keys := [] }

/-- One more token. -/
def push (l : Lexer) (token : Token) : Lexer :=
  { l with tokens := token :: l.tokens, count := l.count + 1 }

/-- One more token, behind this many others. -/
def insert (l : Lexer) (place : Nat) (token : Token) : Lexer :=
  { l with tokens := l.tokens.insertIdx (l.count - place) token, count := l.count + 1 }

/-- A key stays possible on its line and for 1024 characters. -/
def isStale (l : Lexer) (key : PossibleKey) : Bool :=
  key.cursor.line ≠ l.cursor.line || key.cursor.index + 1024 < l.cursor.index

/-- Without the keys that are no longer possible. -/
def dropStale (l : Lexer) : Except Fault Lexer :=
  if l.keys.any fun (_, key) => l.isStale key && key.required then .error .malformed
  else .ok { l with keys := l.keys.filter fun (_, key) => !l.isStale key }

/-- The number of tokens before the first that could still be a key. -/
def released (l : Lexer) : Nat :=
  l.keys.foldl (fun least (_, key) =>
    if l.isStale key && !key.required then least else min least key.place) l.count

/-- The tokens before the first that could still be a key. -/
def certain (l : Lexer) : List Token :=
  (l.tokens.drop (l.count - l.released)).reverse

/-- Without the possible key of this level. -/
def dropKey (l : Lexer) : Except Fault Lexer :=
  match l.keys.lookup l.flow with
  | none => .ok l
  | some key =>
    if key.required then .error .malformed
    else .ok { l with keys := l.keys.filter fun (level, _) => level ≠ l.flow }

/-- With the next token as the possible key of this level, if a key may start here. -/
def saveKey (l : Lexer) : Except Fault Lexer := do
  if !l.allowKey then return l
  let required := l.flow = 0 && l.indent = l.cursor.column
  let l ← l.dropKey
  return { l with keys := (l.flow, ⟨l.count, required, l.cursor⟩) :: l.keys }

/-- With the block collections closed that start beyond a column. -/
def unwind (l : Lexer) (column : Int) : Lexer :=
  if l.flow ≠ 0 then l else go l.outer.length l
where
  /-- Closes at most this many collections. -/
  go : Nat → Lexer → Lexer
    | 0, l => l
    | count + 1, l =>
      if column < l.indent then
        match l.outer with
        | [] => l
        | indent :: outer => go count ({ l with indent, outer }.push .blockEnd)
      else l

/-- A block collection that starts at this column is new. -/
def opens (l : Lexer) (column : Nat) : Bool :=
  l.indent < column

/-- With a block collection open at this column. -/
def openAt (l : Lexer) (column : Nat) : Lexer :=
  { l with indent := column, outer := l.indent :: l.outer }

/-- At the next character that is no gap, comment or line end. -/
def skipToToken : Nat → Lexer → Lexer
  | 0, l => l
  | fuel + 1, l =>
    let c := l.cursor.skipBlanks.skipComment
    if endsLine c.peek? && c.peek?.isSome then
      skipToToken fuel
        { l with cursor := c.lineBreak.2, allowKey := l.allowKey || l.flow = 0 }
    else { l with cursor := c }

/-- A separator, a directive or the end of the text closes everything that is open. -/
def closeAll (l : Lexer) : Except Fault Lexer := do
  let l ← (l.unwind (-1)).dropKey
  return { l with allowKey := false }

/-- After a token of fixed text. -/
def pushMark (l : Lexer) (token : Token) (length : Nat) : Lexer :=
  { l.push token with cursor := l.cursor.forward length }

/-- An opening bracket. -/
def openFlow (l : Lexer) (token : Token) : Except Fault Lexer := do
  let l ← l.saveKey
  return { l.pushMark token 1 with flow := l.flow + 1, allowKey := true }

/-- A closing bracket. -/
def closeFlow (l : Lexer) (token : Token) : Except Fault Lexer := do
  let l ← l.dropKey
  if l.flow = 0 then throw .malformed
  return { l.pushMark token 1 with flow := l.flow - 1, allowKey := false }

/-- The comma between items. -/
def flowEntry (l : Lexer) : Except Fault Lexer := do
  let l ← l.dropKey
  return { l.pushMark .flowEntry 1 with allowKey := true }

/-- Opens a block collection at the cursor if none starts in this column. -/
def openHere (l : Lexer) (token : Token) : Except Fault Lexer := do
  if l.flow ≠ 0 then return l
  if !l.allowKey then throw .malformed
  if l.opens l.cursor.column then return (l.openAt l.cursor.column).push token
  return l

/-- The hyphen before an item. -/
def blockEntry (l : Lexer) : Except Fault Lexer := do
  let l ← l.openHere .blockSequenceStart
  let l ← { l with allowKey := true }.dropKey
  return l.pushMark .blockEntry 1

/-- The question mark before a key. -/
def explicitKey (l : Lexer) : Except Fault Lexer := do
  let l ← l.openHere .blockMappingStart
  let l ← { l with allowKey := l.flow = 0 }.dropKey
  return l.pushMark .key 1

/-- The colon after the possible key of this level. -/
def valueOfKey (l : Lexer) (key : PossibleKey) : Lexer :=
  let column := key.cursor.column
  let l := { l.insert key.place .key with
    keys := l.keys.filter (fun (level, _) => level ≠ l.flow), allowKey := false }
  let l :=
    if l.flow = 0 && l.opens column then
      (l.openAt column).insert key.place .blockMappingStart
    else l
  l.pushMark .value 1

/-- The colon before a value. -/
def value (l : Lexer) : Except Fault Lexer := do
  if let some key := l.keys.lookup l.flow then return l.valueOfKey key
  let l ← l.openHere .blockMappingStart
  let l ← { l with allowKey := l.flow = 0 }.dropKey
  return l.pushMark .value 1

/-- A token that can be a key. -/
def pushKey (l : Lexer) (scan : Cursor → Except Fault (Token × Cursor)) :
    Except Fault Lexer := do
  let l ← l.saveKey
  let (token, cursor) ← scan l.cursor
  return { l.push token with cursor, allowKey := false }

/-- A plain scalar, after which a key may start if it ends its line. -/
def plain (l : Lexer) : Except Fault Lexer := do
  let l ← l.saveKey
  let scan := scanPlain (l.flow ≠ 0) l.indent l.cursor
  return { l.push (.scalar (.ofChars scan.text) true) with
    cursor := scan.cursor, allowKey := scan.crossed }

/-- A block scalar, which is never a key. -/
def block (l : Lexer) (folded : Bool) : Except Fault Lexer := do
  let l ← { l with allowKey := true }.dropKey
  let (text, cursor) ← scanBlock folded l.indent l.cursor
  return { l.push (.scalar (.ofChars text) false) with cursor }

/-- A plain scalar can start with this character, where `next?` comes after it. -/
def startsPlain (l : Lexer) (x : Char) (next? : Option Char) : Bool :=
  !(endsWord (some x) || "-?:,[]\x7b\x7d#&*!|>'\"%@\x60".toList.contains x) ||
    !endsWord next? && (x = '-' || l.flow = 0 && (x = '?' || x = ':'))

/-- The token that starts with this character. -/
def token (l : Lexer) (x : Char) : Except Fault Lexer := do
  let c := l.cursor
  let next? := c.peekAt? 1
  let inFlow := l.flow ≠ 0
  if c.column = 0 && x = '%' then
    let l ← l.closeAll
    let (directive, cursor) ← scanDirective c
    return { l.push (.directive directive) with cursor }
  if c.column = 0 && c.atSeparator then
    let l ← l.closeAll
    return l.pushMark (if x = '-' then .documentStart else .documentEnd) 3
  match x with
  | '[' => l.openFlow .flowSequenceStart
  | '\x7b' => l.openFlow .flowMappingStart
  | ']' => l.closeFlow .flowSequenceEnd
  | '\x7d' => l.closeFlow .flowMappingEnd
  | ',' => l.flowEntry
  | '*' => l.pushKey fun c => do
      let (name, c) ← scanAnchor c
      return (.alias name, c)
  | '&' => l.pushKey fun c => do
      let (name, c) ← scanAnchor c
      return (.anchor name, c)
  | '!' => l.pushKey scanTag
  | '\'' | '"' => l.pushKey fun c => do
      let (text, c) ← scanQuoted (x = '"') (l.ending.getD .malformed) c
      return (.scalar text false, c)
  | _ =>
    if x = '-' && endsWord next? then l.blockEntry
    else if x = '?' && (inFlow || endsWord next?) then l.explicitKey
    else if x = ':' && (inFlow || endsWord next?) then l.value
    else if (x = '|' || x = '>') && !inFlow then l.block (x = '>')
    else if l.startsPlain x next? then l.plain
    else throw .malformed

/-- Stops where the text that can be used ends. -/
def checkEnding (l : Lexer) : Except Fault Unit :=
  match l.cursor.rest, l.ending with
  | [], some fault => .error fault
  | _, _ => .ok ()

/-- Reads the next token, or nothing at the end of the text. -/
def next? (l : Lexer) : Except Fault (Option Lexer) := do
  let l := l.skipToToken (l.cursor.size + 1)
  l.checkEnding
  let l ← l.dropStale
  let l := l.unwind l.cursor.column
  match l.cursor.peek? with
  | none => return none
  | some x =>
    let l ← l.token x
    l.checkEnding
    return some l

/-- Reads tokens to the end of the text. Before a fault come the tokens that were certain. -/
def run : Nat → Lexer → List Token × Option Fault
  | 0, l => (l.certain, some .malformed)
  | fuel + 1, l =>
    match l.next? with
    | .error fault => (l.certain, some fault)
    | .ok (some l) => run fuel l
    | .ok none =>
      match (l.unwind (-1)).dropKey with
      | .error fault => (l.certain, some fault)
      | .ok l => ((l.push .streamEnd).tokens.reverse, none)

end Lexer

/-- The tokens of a text, and the fault that stopped the reading. -/
def Token.ofStream (stream : Stream) : List Token × Option Fault :=
  (Lexer.start stream).run (stream.text.length + 2)

end MachineRbi.Yaml
