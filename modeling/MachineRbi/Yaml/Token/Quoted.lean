import MachineRbi.Text.Basic
import MachineRbi.Text.Wide
import MachineRbi.Yaml.Token.Plain

/-!
# Quoted scalars

Between single quotes only a doubled quote is special; between double quotes a backslash starts an
escape. Line ends fold as in plain scalars, except that an escaped one vanishes.
-/

namespace MachineRbi.Yaml

/-- The character that a letter stands for after a backslash. -/
def escaped? (letter : Char) : Option Char :=
  match letter with
  | '0' => some '\x00'
  | 'a' => some '\x07'
  | 'b' => some '\x08'
  | 't' | '\t' => some '\t'
  | 'n' => some '\n'
  | 'v' => some '\x0b'
  | 'f' => some '\x0c'
  | 'r' => some '\r'
  | 'e' => some '\x1b'
  | ' ' => some ' '
  | '"' => some '"'
  | '\\' => some '\\'
  | '/' => some '/'
  | 'N' => some '\x85'
  | '_' => some '\xa0'
  | 'L' => some '\u2028'
  | 'P' => some '\u2029'
  | _ => none

/-- The number of hexadecimal digits after a letter that starts a character code. -/
def codeLength? (letter : Char) : Option Nat :=
  match letter with
  | 'x' => some 2
  | 'u' => some 4
  | 'U' => some 8
  | _ => none

/-- The number that this many hexadecimal digits write here. -/
def hexCode? (digits : List Char) (length : Nat) : Option Nat :=
  let taken := digits.take length
  if taken.length = length then Text.hexNumber? taken else none

/-- The code point that a code names. Halves of surrogate pairs are code points. -/
def codePoint (code : Nat) : Except Fault WideText :=
  if h : code < 0x110000 then .ok (.ofPoint code h)
  else if code < Nat.pow 2 31 then .error .impossible
  else .error .outOfRange

/-- The line ends that follow, gaps between them aside. -/
def quotedBreaks : Nat → Cursor → Except Fault (List Char × Cursor)
  | 0, c => .ok ([], c)
  | fuel + 1, c => do
    if c.atSeparator then throw .malformed
    let c := c.skipGaps
    if endsLine c.peek? && c.peek?.isSome then
      let (first, next) := c.lineBreak
      let (more, last) ← quotedBreaks fuel next
      return (first ++ more, last)
    else return ([], c)

/-- What an escape stands for; the cursor is behind the backslash. A text that ends there has the
fault `cut`. -/
def scanEscape (cut : Fault) (c : Cursor) : Except Fault (WideText × Cursor) := do
  let some letter := c.peek? | throw cut
  if let some x := escaped? letter then return (.ofChars [x], c.step)
  if let some length := codeLength? letter then
    let c := c.step
    let some code := hexCode? c.rest length | throw .malformed
    return (← codePoint code, c.forward length)
  if isBreak letter then
    let (_, next) := c.lineBreak
    let (breaks, last) ← quotedBreaks (next.size + 1) next
    return (.ofChars breaks, last)
  else throw .malformed

/-- The text up to the next gap or the closing quote. -/
def quotedWord (double : Bool) (cut : Fault) : Nat → Cursor → Except Fault (WideText × Cursor)
  | 0, c => .ok ("", c)
  | fuel + 1, c => do
    let some x := c.peek? | return ("", c)
    if !double && c.startsWith ['\'', '\''] then
      let (more, last) ← quotedWord double cut fuel (c.forward 2)
      return (.ofChars ['\''] ++ more, last)
    if endsWord (some x) || x = (if double then '"' else '\'') then return ("", c)
    if double && x = '\\' then
      let (text, next) ← scanEscape cut c.step
      let (more, last) ← quotedWord double cut fuel next
      return (text ++ more, last)
    let (more, last) ← quotedWord double cut fuel c.step
    return (.ofChars [x] ++ more, last)

/-- What a gap inside quotes reads as. -/
def quotedGap (cut : Fault) (c : Cursor) : Except Fault (List Char × Cursor) := do
  let (gap, c) := c.takeWhile fun x => x = ' ' || x = '\t'
  if c.peek?.isNone then throw cut
  if endsLine c.peek? then
    let (first, next) := c.lineBreak
    let (more, last) ← quotedBreaks (next.size + 1) next
    return (foldBreaks first more, last)
  return (gap, c)

/-- Words and gaps up to the closing quote, and the cursor behind it. -/
def quotedFrom (double : Bool) (cut : Fault) : Nat → Cursor → Except Fault (WideText × Cursor)
  | 0, _ => .error cut
  | fuel + 1, c => do
    let (word, c) ← quotedWord double cut (c.size + 1) c
    if c.peek? = some (if double then '"' else '\'') then return (word, c.step)
    let (gap, c) ← quotedGap cut c
    let (more, last) ← quotedFrom double cut fuel c
    return (word ++ .ofChars gap ++ more, last)

/-- The quoted scalar that starts here. A text that ends inside it has the fault `cut`. -/
def scanQuoted (double : Bool) (cut : Fault) (c : Cursor) :
    Except Fault (WideText × Cursor) :=
  quotedFrom double cut (c.size + 1) c.step

end MachineRbi.Yaml
