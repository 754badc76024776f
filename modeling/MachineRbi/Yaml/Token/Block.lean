import MachineRbi.Yaml.Cursor

/-!
# Block scalars

A scalar whose text is a block of lines below a bar, where every line end stays, or below a
greater-than sign, where a single line end between two lines of text reads as a blank. What
becomes of the line ends after the last line is said in the header, and so may be the indentation.
-/

namespace MachineRbi.Yaml

/-- What becomes of the line ends after the last line of a block. -/
inductive Chomping where
  /-- None stays. -/
  | strip
  /-- One stays. -/
  | clip
  /-- All stay. -/
  | keep
  deriving DecidableEq, Repr

/-- The sign of a chomping. -/
def chomping? : Option Char → Option Chomping
  | some '+' => some .keep
  | some '-' => some .strip
  | _ => none

/-- A decimal digit as an indentation. -/
def increment? : Option Char → Option Nat
  | some x => if x.isDigit then some (x.toNat - '0'.toNat) else none
  | none => none

/-- The header of a block scalar: chomping and indentation, in either order, and no more than a
comment after them. -/
def blockHeader (c : Cursor) : Except Fault (Chomping × Option Nat × Cursor) := do
  let (chomping, increment, c) :=
    match chomping? c.peek?, increment? c.peek? with
    | some chomping, _ =>
      match increment? c.step.peek? with
      | some increment => (chomping, some increment, c.forward 2)
      | none => (chomping, none, c.step)
    | none, some increment =>
      match chomping? c.step.peek? with
      | some chomping => (chomping, some increment, c.forward 2)
      | none => (.clip, some increment, c.step)
    | none, none => (.clip, none, c)
  if increment = some 0 || !endsField c.peek? then throw .malformed
  let c := c.skipBlanks.skipComment
  if !endsLine c.peek? then throw .malformed
  return (chomping, increment, c.lineBreak.2)

/-- The line ends before the first line of text and the greatest indentation among them. -/
def blockIndentation : Nat → Cursor → Nat → List Char × Nat × Cursor
  | 0, c, most => ([], most, c)
  | fuel + 1, c, most =>
    if c.peek? = some ' ' then blockIndentation fuel c.step (max most c.step.column)
    else if endsLine c.peek? && c.peek?.isSome then
      let (first, next) := c.lineBreak
      let (more, most, last) := blockIndentation fuel next most
      (first ++ more, most, last)
    else ([], most, c)

/-- The cursor after the blanks up to a column. -/
def skipIndent (indent : Nat) : Nat → Cursor → Cursor
  | 0, c => c
  | fuel + 1, c =>
    if c.column < indent && c.peek? = some ' ' then skipIndent indent fuel c.step else c

/-- The line ends of empty lines, up to the indentation of the next line. -/
def blockBreaks (indent : Nat) : Nat → Cursor → List Char × Cursor
  | 0, c => ([], c)
  | fuel + 1, c =>
    let c := skipIndent indent indent c
    if endsLine c.peek? && c.peek?.isSome then
      let (first, next) := c.lineBreak
      let (more, last) := blockBreaks indent fuel next
      (first ++ more, last)
    else ([], c)

/-- The lines of a block from here on, after some line ends. The answer is the text with its last
line end and the line ends after it apart. -/
def blockLines (folded : Bool) (indent : Nat) :
    Nat → Cursor → List Char → List Char × List Char × List Char × Cursor
  | 0, c, breaks => ([], [], breaks, c)
  | fuel + 1, c, breaks =>
    let inText := !(c.peek? = some ' ' || c.peek? = some '\t')
    let (line, c) := c.takeWhile fun x => !isBreak x
    let (lineEnd, c) := c.lineBreak
    let (next, c) := blockBreaks indent (c.size + 1) c
    if c.column = indent && c.peek?.isSome then
      let folds := folded && lineEnd = ['\n'] && inText &&
        !(c.peek? = some ' ' || c.peek? = some '\t')
      let joint := if folds then (if next.isEmpty then [' '] else []) else lineEnd
      let (text, last, after, c) := blockLines folded indent fuel c next
      (breaks ++ line ++ joint ++ text, last, after, c)
    else (breaks ++ line, lineEnd, next, c)

/-- The block scalar whose sign stands here, inside a collection at the given indentation. -/
def scanBlock (folded : Bool) (parent : Int) (c : Cursor) : Except Fault (List Char × Cursor) := do
  let (chomping, increment, c) ← blockHeader c.step
  let least := (max (parent + 1) 1).toNat
  let fuel := c.size + 1
  let (breaks, indent, c) :=
    match increment with
    | none =>
      let (breaks, most, c) := blockIndentation fuel c 0
      (breaks, max least most, c)
    | some increment =>
      let indent := least + increment - 1
      let (breaks, c) := blockBreaks indent fuel c
      (breaks, indent, c)
  let (text, lineEnd, after, c) :=
    if c.column = indent && c.peek?.isSome then blockLines folded indent fuel c breaks
    else ([], [], breaks, c)
  return match chomping with
    | .strip => (text, c)
    | .clip => (text ++ lineEnd, c)
    | .keep => (text ++ lineEnd ++ after, c)

end MachineRbi.Yaml
