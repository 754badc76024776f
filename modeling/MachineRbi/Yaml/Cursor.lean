import MachineRbi.Yaml.Token

/-!
# Reading position in a YAML text

A cursor is the rest of a text with its place in the whole. Structure in YAML hangs on the column
at which something starts and on the line on which it ends, so every step keeps count of both.
Five characters end a line; a byte order mark takes no column.
-/

namespace MachineRbi.Yaml

/-- The rest of a text, and the number of characters, lines and columns before it. -/
structure Cursor where
  rest : List Char
  index : Nat
  line : Nat
  column : Nat
  /-- The number of characters of the whole text, which bounds every loop over the rest. -/
  size : Nat

/-- A character that ends a line. -/
def isBreak (c : Char) : Bool :=
  c = '\n' || c = '\r' || c = '\x85' || c = '\u2028' || c = '\u2029'

/-- The line ends here. -/
def endsLine : Option Char → Bool
  | none => true
  | some c => isBreak c

/-- A blank or the end of the line follows. -/
def endsField : Option Char → Bool
  | none => true
  | some c => c = ' ' || isBreak c

/-- A blank, a tab or the end of the line follows. -/
def endsWord : Option Char → Bool
  | none => true
  | some c => c = ' ' || c = '\t' || isBreak c

/-- A character of a plain name: a letter, a digit, a hyphen or an underscore. -/
def isNameChar (c : Char) : Bool :=
  c.isAlphanum || c = '-' || c = '_'

namespace Cursor

/-- The start of a text. -/
def start (text : List Char) : Cursor :=
  ⟨text, 0, 0, 0, text.length⟩

/-- The next character. -/
def peek? (c : Cursor) : Option Char :=
  c.rest.head?

/-- The character that follows this many others. -/
def peekAt? (c : Cursor) (count : Nat) : Option Char :=
  c.rest[count]?

/-- The cursor after the next character. -/
def step (c : Cursor) : Cursor :=
  match c.rest with
  | [] => c
  | x :: rest =>
    if isBreak x && !(x = '\r' && rest.head? = some '\n') then
      ⟨rest, c.index + 1, c.line + 1, 0, c.size⟩
    else if x = '\uFEFF' then ⟨rest, c.index + 1, c.line, c.column, c.size⟩
    else ⟨rest, c.index + 1, c.line, c.column + 1, c.size⟩

/-- The cursor after this many characters. -/
def forward (c : Cursor) : Nat → Cursor
  | 0 => c
  | count + 1 => c.step.forward count

/-- The characters up to the first one outside a class, and the cursor there. -/
def takeWhile (c : Cursor) (p : Char → Bool) : List Char × Cursor :=
  let taken := c.rest.takeWhile p
  (taken, c.forward taken.length)

/-- The cursor after all blanks that follow. -/
def skipBlanks (c : Cursor) : Cursor :=
  (c.takeWhile (· = ' ')).2

/-- The cursor after all blanks and tabs that follow. -/
def skipGaps (c : Cursor) : Cursor :=
  (c.takeWhile fun x => x = ' ' || x = '\t').2

/-- The cursor at the end of the line. -/
def skipLine (c : Cursor) : Cursor :=
  (c.takeWhile fun x => !isBreak x).2

/-- The cursor after a comment, if one starts here. -/
def skipComment (c : Cursor) : Cursor :=
  if c.peek? = some '#' then c.skipLine else c

/-- A line end and the cursor after it; nothing if the line goes on. Line and paragraph
separators stand for themselves and every other line end for a line feed. -/
def lineBreak (c : Cursor) : List Char × Cursor :=
  match c.rest with
  | '\r' :: '\n' :: _ => (['\n'], c.forward 2)
  | x :: _ =>
    if x = '\u2028' || x = '\u2029' then ([x], c.step)
    else if isBreak x then (['\n'], c.step)
    else ([], c)
  | [] => ([], c)

/-- These characters follow. -/
def startsWith (c : Cursor) (text : List Char) : Bool :=
  text.isPrefixOf c.rest

/-- A line of three hyphens or three points, with a gap or nothing after it, parts documents. -/
def atSeparator (c : Cursor) : Bool :=
  (c.startsWith ['-', '-', '-'] || c.startsWith ['.', '.', '.']) && endsWord (c.peekAt? 3)

end Cursor

end MachineRbi.Yaml
