import MachineRbi.Yaml.Cursor

/-!
# Plain scalars

A scalar without quotes ends before a colon that is followed by a gap, before a comment, and
between brackets also before a bracket, a comma or a question mark. Over a line end it goes on as
long as the next line is indented enough; one line end between words reads as a blank, and of
several the first one is dropped.
-/

namespace MachineRbi.Yaml

/-- A character that parts the items of a bracketed collection. -/
def isFlowMark (x : Char) : Bool :=
  x = ',' || x = '[' || x = ']' || x = '\x7b' || x = '\x7d'

/-- The colon before these characters ends a plain scalar. -/
def colonEnds (flow : Bool) (next? : Option Char) : Bool :=
  endsWord next? || flow && next?.any isFlowMark

/-- The characters of a plain scalar up to the next gap. -/
def plainWord (flow : Bool) : List Char → List Char
  | [] => []
  | x :: rest =>
    if endsWord (some x) || x = ':' && colonEnds flow rest.head? ||
        flow && (isFlowMark x || x = '?') then []
    else x :: plainWord flow rest

/-- The line ends that follow, blanks between them aside; nothing if a separator of documents
comes first. -/
def plainBreaks : Nat → Cursor → Option (List Char) × Cursor
  | 0, c => (some [], c)
  | fuel + 1, c =>
    let c := c.skipBlanks
    if endsLine c.peek? && c.peek?.isSome then
      let (first, next) := c.lineBreak
      if next.atSeparator then (none, next)
      else
        let (more?, last) := plainBreaks fuel next
        (more?.map (first ++ ·), last)
    else (some [], c)

/-- What stands for a line end and the further line ends after it inside a scalar. -/
def foldBreaks (first more : List Char) : List Char :=
  if first = ['\n'] then (if more.isEmpty then [' '] else more) else first ++ more

/-- The gap after a word of a plain scalar. -/
structure PlainGap where
  /-- What the gap reads as if a word follows it. -/
  text : List Char
  cursor : Cursor
  /-- The gap holds a line end. -/
  crossed : Bool

/-- The gap that starts here; its text is empty where the scalar cannot go on. -/
def plainGap (c : Cursor) : PlainGap :=
  let (blanks, c) := c.takeWhile (· = ' ')
  if endsLine c.peek? && c.peek?.isSome then
    let (first, c) := c.lineBreak
    if c.atSeparator then ⟨[], c, true⟩
    else
      match plainBreaks (c.size + 1) c with
      | (some more, c) => ⟨foldBreaks first more, c, true⟩
      | (none, c) => ⟨[], c, true⟩
  else ⟨blanks, c, false⟩

/-- A plain scalar that has been read. -/
structure PlainScan where
  text : List Char
  cursor : Cursor
  /-- A line end came after the last word, so that a key may follow. -/
  crossed : Bool

/-- What a scalar goes on with behind a gap. -/
def plainFrom (flow : Bool) (indent : Int) : Nat → PlainGap → PlainScan
  | 0, gap => ⟨[], gap.cursor, gap.crossed⟩
  | fuel + 1, gap =>
    let c := gap.cursor
    let word := if c.peek? = some '#' then [] else plainWord flow c.rest
    if word.isEmpty then ⟨[], c, gap.crossed⟩
    else
      let text := gap.text ++ word
      let next := plainGap (c.forward word.length)
      if next.text.isEmpty || next.cursor.peek? = some '#' ||
          !flow && decide ((next.cursor.column : Int) < indent) then
        ⟨text, next.cursor, next.crossed⟩
      else
        let more := plainFrom flow indent fuel next
        { more with text := text ++ more.text }

/-- The plain scalar that starts here, inside a collection at the given indentation. -/
def scanPlain (flow : Bool) (indent : Int) (c : Cursor) : PlainScan :=
  plainFrom flow (indent + 1) (c.size + 1) ⟨[], c, false⟩

end MachineRbi.Yaml
