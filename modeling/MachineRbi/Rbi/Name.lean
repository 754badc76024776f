import MachineRbi.Text.Wide

/-!
# Names in interface files

Which texts Ruby takes as the path of a constant, as the name of a method and as the name of a
parameter. All of them are ASCII, so no half of a surrogate pair is part of one. Every check looks
at a text up to one line break at its end, so a single final line break never decides.
-/

namespace MachineRbi.Rbi

/-- A letter or an underscore, which an identifier can start with. -/
def isWordStart (c : Char) : Bool :=
  c.isAlpha || c = '_'

/-- A character that an identifier or a constant can go on with. -/
def isWordPart (c : Char) : Bool :=
  c.isAlphanum || c = '_'

/-- One word that starts with a letter or an underscore. -/
def isIdentifier : List Char → Bool
  | [] => false
  | c :: rest => isWordStart c && rest.all isWordPart

/-- One word that starts with a capital. -/
def isConstant : List Char → Bool
  | [] => false
  | c :: rest => c.isUpper && rest.all isWordPart

/-- The texts between double colons, taken from the left. -/
def splitScopes : List Char → List (List Char)
  | ':' :: ':' :: rest => [] :: splitScopes rest
  | c :: rest =>
    match splitScopes rest with
    | [] => [[c]]
    | first :: others => (c :: first) :: others
  | [] => [[]]

/-- The text without the double colon at its start, if there is one. -/
def dropLeadingScope : List Char → List Char
  | ':' :: ':' :: rest => rest
  | cs => cs

/-- Constants with double colons between them, and perhaps one before the first. -/
def isScopedConstant (cs : List Char) : Bool :=
  (splitScopes (dropLeadingScope cs)).all isConstant

/-- A mark that can end the name of a method. -/
def isMark (c : Char) : Bool :=
  c = '?' || c = '!' || c = '='

/-- The text ends in a mark. -/
def endsInMark (cs : List Char) : Bool :=
  cs.getLast?.any isMark

/-- The text without one mark at its end. -/
def dropMark (cs : List Char) : List Char :=
  if endsInMark cs then cs.dropLast else cs

/-- The text without one line break at its end. -/
def dropBreak (cs : List Char) : List Char :=
  if cs.getLast? = some '\n' then cs.dropLast else cs

/-- The path of a constant. -/
def isConstantPath (name : WideText) : Bool :=
  isScopedConstant (dropBreak name.chars)

/-- The name of a method: an identifier with at most one mark behind it. -/
def isMethodName (name : WideText) : Bool :=
  isIdentifier (dropMark (dropBreak name.chars))

/-- The name of a parameter: that of a method whose last character is not a mark. -/
def isParameterName (name : String) : Bool :=
  isMethodName name && !endsInMark name.toList

end MachineRbi.Rbi
