import MachineRbi.Binary64.Basic
import MachineRbi.Text.Basic
import MachineRbi.Text.Lowercase
import MachineRbi.Yaml.Token
import MachineRbi.Yaml.Tag

/-!
# Numbers and truth values in YAML

The value of a scalar that is a number, be it by its form or because a tag says so. A tag lets
more texts be numbers than the forms do: blanks around the digits, and digits of any script. The
four information separators, which count as blank elsewhere, do not count here.
-/

namespace MachineRbi.Yaml

/-- The value of a digit in some base up to 16. -/
def baseDigit? (base : Nat) (c : Char) : Option Nat :=
  let value? := (Text.digitValue? c).orElse fun _ =>
    if 'a' ≤ c && c ≤ 'f' then some (c.toNat - 'a'.toNat + 10)
    else if 'A' ≤ c && c ≤ 'F' then some (c.toNat - 'A'.toNat + 10)
    else none
  value?.filter (· < base)

/-- The number that digits of a base write. A decimal number has at most 4300 digits. -/
def digitsValue? (base : Nat) (digits : List Char) : Option Nat :=
  if digits.isEmpty || base = 10 && 4300 < digits.length then none
  else digits.foldlM (fun n c => (baseDigit? base c).map (base * n + ·)) 0

/-- The digits after the letters that may announce their base. -/
def afterBase (base : Nat) (cs : List Char) : List Char :=
  match cs with
  | '0' :: letter :: rest =>
    let announces :=
      base = 2 && (letter = 'b' || letter = 'B') || base = 8 && (letter = 'o' || letter = 'O') ||
        base = 16 && (letter = 'x' || letter = 'X')
    if announces then rest else cs
  | cs => cs

/-- The text starts with a minus sign. -/
def isMinus (cs : List Char) : Bool :=
  cs.head? = some '-'

/-- A blank that may stand around a number. -/
def isPadding (c : Char) : Bool :=
  Text.isBlank c && !(0x1C ≤ c.toNat && c.toNat ≤ 0x1F)

/-- The characters of a number without the blanks around it. -/
def trimPadding (cs : List Char) : List Char :=
  ((cs.dropWhile isPadding).reverse.dropWhile isPadding).reverse

/-- An integer with an optional sign and blanks around it. -/
def integer? (base : Nat) (cs : List Char) : Option Int :=
  let cs := trimPadding cs
  let value? := digitsValue? base (afterBase base (unsigned cs))
  value?.map fun value => if isMinus cs then -(value : Int) else value

/-- The value of digits of base 60, most significant first. -/
def sixtieths (digits : List Int) : Int :=
  digits.foldl (fun n digit => 60 * n + digit) 0

/-- The integer without its sign and its underscores. -/
def unsignedInt? (body : List Char) : Option Int :=
  match body with
  | ['0'] => some 0
  | '0' :: 'b' :: digits => integer? 2 digits
  | '0' :: 'x' :: digits => integer? 16 digits
  | '0' :: _ => integer? 8 body
  | _ =>
    if body.contains ':' then ((splitAt ':' body).mapM (integer? 10)).map sixtieths
    else integer? 10 body

/-- The integer that a text says. -/
def readInt (cs : List Char) : Except Fault Int := do
  let cs := cs.filter (· ≠ '_')
  let body := unsigned cs
  if body.isEmpty then throw .emptyNumber
  let some value := unsignedInt? body | throw .impossible
  return if isMinus cs then -value else value

/-- Digits of any script as ASCII digits. -/
def asciiDigits? (cs : List Char) : Option (List Char) :=
  cs.mapM fun c => (Text.digitValue? c).map fun value => Char.ofNat ('0'.toNat + value)

/-- The signed power of ten after an exponent mark; zero without one. -/
def exponent? (cs : List Char) : Option Int :=
  match cs with
  | [] => some 0
  | _ :: rest => do
    let digits ← asciiDigits? (unsigned rest)
    if digits.isEmpty then none
    let value : Int := digits.foldl (fun n d => 10 * n + (d.toNat - '0'.toNat)) 0
    return if isMinus rest then -value else value

/-- The unsigned number nearest to digits with an optional point and an optional exponent. -/
def unsignedFloat? (cs : List Char) : Option Binary64 := do
  let mantissa := cs.takeWhile fun c => !(c = 'e' || c = 'E')
  let power ← exponent? (cs.drop mantissa.length)
  let whole ← asciiDigits? (mantissa.takeWhile (· ≠ '.'))
  let fraction ← asciiDigits? ((mantissa.dropWhile (· ≠ '.')).drop 1)
  let digits := whole ++ fraction
  if digits.isEmpty then none
  let value := digits.foldl (fun n d => 10 * n + (d.toNat - '0'.toNat)) 0
  return Binary64.ofDecimal false value (power - fraction.length)

/-- A number with an optional sign and blanks around it, or a word for an infinity or for what is
not a number. -/
def float? (cs : List Char) : Option Binary64 :=
  let cs := trimPadding cs
  let body := Text.lowerChars (unsigned cs)
  let value? :=
    if body = "inf".toList || body = "infinity".toList then some (.infinite false)
    else if body = "nan".toList then some .nan
    else unsignedFloat? body
  value?.map fun value => if isMinus cs then value.neg else value

/-- The sum of digits times powers of 60, the last digit first, each step rounded. A power beyond
all finite numbers is out of range. -/
def sixtiethsFloat (digits : List Binary64) : Except Fault Binary64 :=
  if Binary64.ofInt (Int.pow 60 (digits.length - 1)) = .infinite false then .error .outOfRange
  else
    .ok (digits.reverse.zipIdx.foldl
      (fun sum (digit, place) => sum.add (digit.mul (Binary64.ofInt (Int.pow 60 place))))
      (Binary64.zero false))

/-- The word for what is not a number. -/
def nanWord : List Char :=
  ".nan".toList

/-- The text is the word for what is not a number, in any case and with a sign or underscores. -/
def isNanWord (cs : List Char) : Bool :=
  unsigned (Text.lowerChars (cs.filter (· ≠ '_'))) = nanWord

/-- The floating-point number that a text says. -/
def readFloat (cs : List Char) : Except Fault Binary64 := do
  let cs := Text.lowerChars (cs.filter (· ≠ '_'))
  if cs.isEmpty then throw .emptyNumber
  let body := unsigned cs
  let value ←
    if body = ".inf".toList then pure (.infinite false)
    else if body = nanWord then pure .nan
    else if body.contains ':' then do
      let some digits := (splitAt ':' body).mapM float? | throw .impossible
      sixtiethsFloat digits
    else do
      let some value := float? body | throw .impossible
      pure value
  return if isMinus cs then value.neg else value

/-- The truth value that a word says, in any case of its letters. -/
def readBool (cs : List Char) : Except Fault Bool :=
  let word := String.ofList (Text.lowerChars cs)
  if ["yes", "true", "on"].contains word then .ok true
  else if ["no", "false", "off"].contains word then .ok false
  else .error .unknownWord

end MachineRbi.Yaml
