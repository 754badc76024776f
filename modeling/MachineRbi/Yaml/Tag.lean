/-!
# Types of nodes

The tag of a node says which type of value it has. A scalar without a tag and without quotes has
the type whose form it has: a truth value, a number, a point in time, nothing, or otherwise a text.
-/

namespace MachineRbi.Yaml

/-- A type of node. -/
inductive Tag where
  | null
  | bool
  | int
  | float
  | binary
  | timestamp
  | str
  | seq
  | map
  | set
  | omap
  | pairs
  /-- The key that merges another mapping in. -/
  | merge
  /-- The key of the value that stands for a whole mapping. -/
  | value
  /-- A type that documents do not have. -/
  | unknown
  deriving DecidableEq, Repr

/-- The type that a full tag names. -/
def Tag.ofName (name : String) : Tag :=
  match name with
  | "tag:yaml.org,2002:null" => .null
  | "tag:yaml.org,2002:bool" => .bool
  | "tag:yaml.org,2002:int" => .int
  | "tag:yaml.org,2002:float" => .float
  | "tag:yaml.org,2002:binary" => .binary
  | "tag:yaml.org,2002:timestamp" => .timestamp
  | "tag:yaml.org,2002:str" => .str
  | "tag:yaml.org,2002:seq" => .seq
  | "tag:yaml.org,2002:map" => .map
  | "tag:yaml.org,2002:set" => .set
  | "tag:yaml.org,2002:omap" => .omap
  | "tag:yaml.org,2002:pairs" => .pairs
  | "tag:yaml.org,2002:merge" => .merge
  | "tag:yaml.org,2002:value" => .value
  | _ => .unknown

/-- The words for truth values. -/
def truthWords : List String :=
  ["yes", "Yes", "YES", "no", "No", "NO", "true", "True", "TRUE", "false", "False", "FALSE",
   "on", "On", "ON", "off", "Off", "OFF"]

/-- The words for nothing. -/
def nullWords : List String :=
  ["", "~", "null", "Null", "NULL"]

/-- The digits of a number may be grouped by underscores. -/
def isGroupedDigit (c : Char) : Bool :=
  c.isDigit || c = '_'

/-- The characters without one sign in front. -/
def unsigned : List Char → List Char
  | '+' :: rest | '-' :: rest => rest
  | cs => cs

/-- Characters between separators. -/
def splitAt (separator : Char) : List Char → List (List Char)
  | [] => [[]]
  | c :: rest =>
    match splitAt separator rest with
    | [] => [[c]]
    | first :: others => if c = separator then [] :: first :: others else (c :: first) :: others

/-- One or two digits below 60. -/
def isSixtieth : List Char → Bool
  | [a] => a.isDigit
  | [a, b] => '0' ≤ a && a ≤ '5' && b.isDigit
  | _ => false

/-- Digits of base 60, at least one of them. -/
def isSixtieths (parts : List (List Char)) : Bool :=
  !parts.isEmpty && parts.all isSixtieth

/-- A number of at least one digit, the first not an underscore. -/
def isGrouped : List Char → Bool
  | [] => false
  | c :: rest => c.isDigit && rest.all isGroupedDigit

/-- The form of an integer: binary, octal, decimal, hexadecimal or of base 60. -/
def isIntForm (cs : List Char) : Bool :=
  match unsigned cs with
  | '0' :: 'b' :: digits =>
    !digits.isEmpty && digits.all fun c => c = '0' || c = '1' || c = '_'
  | '0' :: 'x' :: digits =>
    !digits.isEmpty && digits.all fun c =>
      isGroupedDigit c || 'a' ≤ c && c ≤ 'f' || 'A' ≤ c && c ≤ 'F'
  | '0' :: digits => digits.all fun c => '0' ≤ c && c ≤ '7' || c = '_'
  | body =>
    match splitAt ':' body with
    | whole :: parts => isGrouped whole && (parts.isEmpty || isSixtieths parts)
    | [] => false

/-- Nothing, or an exponent with its sign. -/
def isExponent : List Char → Bool
  | [] => true
  | e :: sign :: digits =>
    (e = 'e' || e = 'E') && (sign = '+' || sign = '-') && !digits.isEmpty &&
      digits.all Char.isDigit
  | _ => false

/-- The digits after a point, and an exponent. -/
def isFraction (cs : List Char) : Bool :=
  isExponent (cs.dropWhile isGroupedDigit)

/-- The words for an infinity without its sign, and for what is not a number. -/
def floatWords : List String × List String :=
  ([".inf", ".Inf", ".INF"], [".nan", ".NaN", ".NAN"])

/-- The form of a floating-point number: digits with a point among them, a number of base 60 with
a point, or a word. A number that starts with the point has no sign. -/
def isFloatForm (cs : List Char) : Bool :=
  let body := unsigned cs
  let whole := body.takeWhile (· ≠ '.')
  floatWords.2.contains (String.ofList cs) || floatWords.1.contains (String.ofList body) ||
    match body.dropWhile (· ≠ '.') with
    | '.' :: fraction =>
      match splitAt ':' whole with
      | [[]] =>
        body.length = cs.length && fraction.head?.any Char.isDigit && isFraction fraction
      | [digits] => isGrouped digits && isFraction fraction
      | digits :: parts => isGrouped digits && isSixtieths parts && fraction.all isGroupedDigit
      | [] => false
    | _ => false

end MachineRbi.Yaml
