/-!
# Paths

A path starts at the working directory or at a root and goes through names. `..` is a name like any
other; empty names and `.` say nothing and are left out, so each path has one text. Two roots are
told apart in the text: one slash, and exactly two.
-/

namespace MachineRbi

/-- Where a path starts. -/
inductive Anchor where
  | here
  | root
  | doubleRoot
  deriving DecidableEq, Repr

/-- A path in normal form. -/
structure Path where
  anchor : Anchor
  names : List String
  deriving DecidableEq, Repr

namespace Path

/-- The text of an anchor. -/
def anchorText : Anchor → String
  | .here => ""
  | .root => "/"
  | .doubleRoot => "//"

/-- The texts between slashes. -/
def splitSlashes : List Char → List (List Char)
  | [] => [[]]
  | c :: rest =>
    if c = '/' then [] :: splitSlashes rest
    else
      match splitSlashes rest with
      | [] => [[c]]
      | first :: others => (c :: first) :: others

/-- A text between slashes that goes somewhere. -/
def isName (cs : List Char) : Bool :=
  cs ≠ [] && cs ≠ ['.']

/-- The anchor that so many slashes at the start stand for. -/
def anchorOf : Nat → Anchor
  | 0 => .here
  | 2 => .doubleRoot
  | _ => .root

/-- The path that characters say. -/
def ofChars (cs : List Char) : Path :=
  ⟨anchorOf (cs.takeWhile (· = '/')).length,
    ((splitSlashes cs).filter isName).map String.ofList⟩

/-- The path that a text says. -/
def ofText (text : String) : Path :=
  ofChars text.toList

/-- The working directory. -/
def here : Path :=
  ⟨.here, []⟩

/-- Goes on with another path; one with a root starts anew. -/
def join (path next : Path) : Path :=
  match next.anchor with
  | .here => ⟨path.anchor, path.names ++ next.names⟩
  | _ => next

/-- The paths of texts, each going on from those before it. -/
def ofTexts (texts : List String) : Path :=
  (texts.map ofText).foldl join here

/-- Names with slashes between them. -/
def joinNames (names : List String) : String :=
  "/".intercalate names

/-- The text of a path; the working directory is a point. -/
def text (path : Path) : String :=
  if path.anchor = .here && path.names = [] then "."
  else anchorText path.anchor ++ joinNames path.names

/-- The path without its last name, if it has one. -/
def parent (path : Path) : Path :=
  ⟨path.anchor, path.names.dropLast⟩

end Path

end MachineRbi
