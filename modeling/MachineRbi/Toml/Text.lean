import MachineRbi.Text.Basic

/-!
# Strings and keys in TOML

The four kinds of strings, and keys made of bare or quoted parts. Every reader takes the rest of a
text to what it read and the rest behind it. A number before the text bounds the steps; that of the
characters left is enough.
-/

namespace MachineRbi.Toml

/-- Why a text has no value. -/
inductive Fault where
  /-- The text breaks a rule of the language. -/
  | malformed
  /-- A decimal integer has more than 4300 digits. -/
  | oversized
  /-- Values written in place are inside others beyond what the stack has room for. -/
  | tooDeep
  deriving DecidableEq, Repr

/-- Reads something at the start of a text; the answer has the rest behind it. -/
abbrev Reader (α : Type) := List Char → Except Fault (α × List Char)

/-- A blank or a tab. -/
def isGap (c : Char) : Bool :=
  c = ' ' || c = '\t'

/-- The rest behind the gaps at the start. -/
def skipGaps (cs : List Char) : List Char :=
  cs.dropWhile isGap

/-- The rest behind the gaps and line ends at the start. -/
def skipSpace (cs : List Char) : List Char :=
  cs.dropWhile fun c => isGap c || c = '\n'

/-- A control character other than a tab. -/
def isControl (c : Char) : Bool :=
  (c.toNat < 32 || c.toNat = 127) && c ≠ '\t'

/-- A character that cannot stand in a string; strings of several lines hold line ends. -/
def isIllegal (multiline : Bool) (c : Char) : Bool :=
  isControl c && !(multiline && c = '\n')

/-- The character of a code of this many hexadecimal digits. -/
def readCode (length : Nat) : Reader Char := fun cs =>
  let digits := cs.take length
  match Text.hexNumber? digits with
  | some code =>
    if digits.length = length && (code < 0xD800 || 0xE000 ≤ code && code < 0x110000) then
      .ok (Char.ofNat code, cs.drop length)
    else .error .malformed
  | none => .error .malformed

/-- The rest behind a backslash at the end of a line, which takes the blanks after it along. -/
def skipFold (cs : List Char) : Except Fault (List Char) :=
  match skipGaps cs with
  | [] => .ok []
  | '\n' :: rest => .ok (skipSpace rest)
  | _ => .error .malformed

/-- What an escape stands for; the text starts behind the backslash. -/
def readEscape (multiline : Bool) : Reader (List Char) := fun cs =>
  match cs with
  | 'b' :: rest => .ok (['\x08'], rest)
  | 't' :: rest => .ok (['\t'], rest)
  | 'n' :: rest => .ok (['\n'], rest)
  | 'f' :: rest => .ok (['\x0c'], rest)
  | 'r' :: rest => .ok (['\r'], rest)
  | '"' :: rest => .ok (['"'], rest)
  | '\\' :: rest => .ok (['\\'], rest)
  | 'u' :: rest => (readCode 4 rest).map fun (c, rest) => ([c], rest)
  | 'U' :: rest => (readCode 8 rest).map fun (c, rest) => ([c], rest)
  | c :: _ =>
    if multiline && (isGap c || c = '\n') then (skipFold cs).map ([], ·)
    else .error .malformed
  | [] => .error .malformed

/-- The text up to the closing double quote, or up to three of them. -/
def readBasic (multiline : Bool) : Nat → Reader (List Char)
  | 0, _ => .error .malformed
  | fuel + 1, cs => do
    match cs with
    | [] => throw .malformed
    | '"' :: rest =>
      if !multiline then return ([], rest)
      if rest.take 2 = ['"', '"'] then return ([], rest.drop 2)
      let (text, rest) ← readBasic multiline fuel rest
      return ('"' :: text, rest)
    | '\\' :: rest =>
      let (escape, rest) ← readEscape multiline rest
      let (text, rest) ← readBasic multiline fuel rest
      return (escape ++ text, rest)
    | c :: rest =>
      if isIllegal multiline c then throw .malformed
      let (text, rest) ← readBasic multiline fuel rest
      return (c :: text, rest)

/-- The text up to the closing single quote, or up to three of them. -/
def readLiteral (multiline : Bool) : Reader (List Char)
  | [] => .error .malformed
  | c :: rest =>
    if c = '\'' && !multiline then .ok ([], rest)
    else if c = '\'' && rest.take 2 = ['\'', '\''] then .ok ([], rest.drop 2)
    else if isIllegal multiline c then .error .malformed
    else (readLiteral multiline rest).map fun (text, rest) => (c :: text, rest)

/-- The quotes right behind the three closing ones, at most two, belong to the text. -/
def readTrailing (quote : Char) (text cs : List Char) : List Char × List Char :=
  let extra := (cs.take 2).takeWhile (· = quote)
  (text ++ extra, cs.drop extra.length)

/-- A string of several lines behind its three opening quotes; a line end right there is
dropped. -/
def readMultiline (fuel : Nat) (quote : Char) : Reader (List Char) := fun cs => do
  let body := if cs.head? = some '\n' then cs.drop 1 else cs
  let (text, rest) ← if quote = '"' then readBasic true fuel body else readLiteral true body
  return readTrailing quote text rest

/-- A string of one line behind its opening quote. -/
def readLine (fuel : Nat) (quote : Char) : Reader (List Char) := fun cs =>
  if quote = '"' then readBasic false fuel cs else readLiteral false cs

/-- A character of a bare key. -/
def isBare (c : Char) : Bool :=
  c.isAlphanum || c = '-' || c = '_'

/-- One part of a key. -/
def readKeyPart (fuel : Nat) : Reader String := fun cs =>
  match cs with
  | [] => .error .malformed
  | c :: rest =>
    if isBare c then .ok (String.ofList (cs.takeWhile isBare), cs.dropWhile isBare)
    else if c = '"' || c = '\'' then
      (readLine fuel c rest).map fun (text, rest) => (String.ofList text, rest)
    else .error .malformed

/-- The parts of a key with points between them, and the rest behind the gaps after it. -/
def readKey : Nat → Reader (List String)
  | 0, _ => .error .malformed
  | fuel + 1, cs => do
    let (part, rest) ← readKeyPart fuel cs
    match skipGaps rest with
    | '.' :: rest =>
      let (parts, rest) ← readKey fuel (skipGaps rest)
      return (part :: parts, rest)
    | rest => return ([part], rest)

/-- The rest behind a comment, which holds no control character. -/
def skipComment (cs : List Char) : Except Fault (List Char) :=
  match cs with
  | '#' :: rest =>
    if (rest.takeWhile (· ≠ '\n')).any isControl then .error .malformed
    else .ok (rest.dropWhile (· ≠ '\n'))
  | cs => .ok cs

end MachineRbi.Toml
