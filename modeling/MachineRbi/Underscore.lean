import MachineRbi.Text.Basic
import MachineRbi.Text.Lowercase

/-!
# File stems of model ids

The id of a model is the path of a constant, and its stem is the relative path of a file without
the extension. Double colons become slashes, the words of a constant in mixed case are parted by
underscores, hyphens become underscores, and all letters become small. Words are parted in two
passes: `breakAcronyms` ends a run of capitals before the capital that starts the next word, and
`breakWords` parts a capital from a small letter or a digit before it.
-/

namespace MachineRbi

namespace Underscore

/-- An ASCII capital. -/
def isCapital (c : Char) : Bool :=
  c.isUpper

/-- A small ASCII letter. -/
def isSmall (c : Char) : Bool :=
  c.isLower

/-- A character of an acronym. -/
def inAcronym (c : Char) : Bool :=
  isCapital c || Text.isDecimalDigit c

/-- The text with a slash for each double colon, taken from the left. -/
def slashScopes : List Char → List Char
  | ':' :: ':' :: rest => '/' :: slashScopes rest
  | c :: rest => c :: slashScopes rest
  | [] => []

/-- An acronym in front of the next character. The acronym is given in reverse. Its last capital
starts a new word if a small letter comes next and something stands before it. -/
def closeAcronym (reversed : List Char) (next : Char) : List Char :=
  match reversed with
  | last :: before :: earlier =>
    if isCapital last && isSmall next then (before :: earlier).reverse ++ ['_', last]
    else reversed.reverse
  | _ => reversed.reverse

/-- Parts every acronym from the word behind it. The acronym read so far is given in reverse. -/
def breakAcronyms (reversed : List Char) : List Char → List Char
  | [] => reversed.reverse
  | c :: rest =>
    if inAcronym c then breakAcronyms (c :: reversed) rest
    else closeAcronym reversed c ++ c :: breakAcronyms [] rest

/-- Parts every capital from a small letter or a digit before it. -/
def breakWords : List Char → List Char
  | a :: b :: rest =>
    if (isSmall a || Text.isDecimalDigit a) && isCapital b then a :: '_' :: b :: breakWords rest
    else a :: breakWords (b :: rest)
  | [c] => [c]
  | [] => []

/-- The text with its words parted by underscores. -/
def partWords (cs : List Char) : List Char :=
  breakWords (breakAcronyms [] cs)

/-- A hyphen becomes an underscore. -/
def joinHyphen (c : Char) : Char :=
  if c = '-' then '_' else c

end Underscore

/-- The file stem of a model id. -/
def underscore (modelId : String) : String :=
  let parted := Underscore.partWords (Underscore.slashScopes modelId.toList)
  String.ofList (Text.lowerChars (parted.map Underscore.joinHyphen))

end MachineRbi
