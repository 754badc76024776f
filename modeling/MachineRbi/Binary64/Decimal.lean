import MachineRbi.Binary64.Basic

/-!
# Decimal text of binary64 numbers

A number is written with the fewest decimal digits that read back as the same number, and of all
texts with that many digits with the one nearest to it. The point stands among the digits for
numbers from `0.0001` up to below `10 ^ 16`; outside that range the text has an exponent.
-/

namespace MachineRbi.Binary64

/-- Positive decimal numbers `0.d₁d₂… · 10 ^ point`, as the digits and the point. -/
structure Decimal where
  digits : List Char
  point : Int
  deriving Repr

/-- The number of decimal digits. -/
def digitCount (n : Nat) : Nat :=
  (Nat.toDigits 10 n).length

/-- The `point` for which the positive fraction lies between `0.1 · 10 ^ point` and
`10 ^ point`, the upper end excluded. -/
def decimalOrder (num den : Nat) : Int :=
  if den ≤ num then digitCount (num / den)
  else 1 - (digitCount ((den + num - 1) / num - 1) : Int)

/-- The numbers that round to a given one lie around it, between two bounds. All three are
multiples of one unit, a fraction, and the bounds count when the mantissa is even. -/
structure Neighbourhood where
  unitNum : Nat
  unitDen : Nat
  low : Nat
  value : Nat
  high : Nat
  closed : Bool

/-- The neighbourhood of `mantissa · 2 ^ exponent`. Below a power of two the numbers lie twice as
close as above it. -/
def neighbourhood (mantissa : Nat) (exponent : Int) : Neighbourhood :=
  let (unitNum, unitDen) := scale 1 1 (exponent - 2)
  let gap := if mantissa = Nat.pow 2 52 && leastExponent < exponent then 1 else 2
  { unitNum, unitDen, low := 4 * mantissa - gap, value := 4 * mantissa, high := 4 * mantissa + 2,
    closed := mantissa % 2 = 0 }

/-- The candidate `count · 10 ^ power` on the scale of the unit, and the unit on that scale. -/
def Neighbourhood.scales (near : Neighbourhood) (power : Int) : Nat × Nat :=
  if 0 ≤ power then (near.unitDen * Nat.pow 10 power.toNat, near.unitNum)
  else (near.unitDen, near.unitNum * Nat.pow 10 (-power).toNat)

/-- The decimal `count · 10 ^ power` rounds to the number. -/
def Neighbourhood.has (near : Neighbourhood) (power : Int) (count : Nat) : Bool :=
  let (step, unit) := near.scales power
  let candidate := count * step
  if near.closed then near.low * unit ≤ candidate && candidate ≤ near.high * unit
  else near.low * unit < candidate && candidate < near.high * unit

/-- The distance from the number to the decimal `count · 10 ^ power`. -/
def Neighbourhood.distance (near : Neighbourhood) (power : Int) (count : Nat) : Nat :=
  let (step, unit) := near.scales power
  ((count * step : Int) - (near.value * unit : Int)).natAbs

/-- The multiple of `10 ^ power` that reads back and is nearest to the number, of the two around
it; a tie goes to the even multiple. -/
def Neighbourhood.pick? (near : Neighbourhood) (power : Int) : Option Nat :=
  let (step, unit) := near.scales power
  let below := near.value * unit / step
  let above := below + 1
  match near.has power below, near.has power above with
  | false, false => none
  | true, false => some below
  | false, true => some above
  | true, true =>
    let down := near.distance power below
    let up := near.distance power above
    if down < up then some below
    else if up < down then some above
    else some (if below % 2 = 0 then below else above)

/-- The first of the given digit counts at which a decimal reads back, with that decimal. -/
def Neighbourhood.shortest (near : Neighbourhood) (order : Int) : List Nat → Decimal
  | [] => ⟨[], order⟩
  | length :: rest =>
    match near.pick? (order - length) with
    | none => near.shortest order rest
    | some count =>
      let digits := Nat.toDigits 10 count
      ⟨digits, order - length + digits.length⟩

/-- The shortest decimal that reads back as `mantissa · 2 ^ exponent`; 17 digits always do. -/
def shortestDecimal (mantissa : Nat) (exponent : Int) : Decimal :=
  let (num, den) := scale mantissa 1 exponent
  let order := decimalOrder num den
  let found := (neighbourhood mantissa exponent).shortest order ((List.range 17).map (· + 1))
  { found with digits := (found.digits.reverse.dropWhile (· = '0')).reverse }

/-- Numbers with a point in this range are written without an exponent. -/
def isPositional (point : Int) : Bool :=
  -4 < point && point ≤ 16

/-- The digits with the point among them and at least one digit on each side of it. -/
def positional (decimal : Decimal) : List Char :=
  if decimal.point ≤ 0 then
    '0' :: '.' :: List.replicate (-decimal.point).toNat '0' ++ decimal.digits
  else
    let whole := decimal.point.toNat
    let front := decimal.digits.take whole
    let back := decimal.digits.drop whole
    front ++ List.replicate (whole - front.length) '0' ++ '.' ::
      (if back.isEmpty then ['0'] else back)

/-- One digit, the others after a point, and a signed exponent of at least two digits. -/
def scientific (decimal : Decimal) : List Char :=
  let exponent := decimal.point - 1
  let digits := Nat.toDigits 10 exponent.natAbs
  let written := List.replicate (2 - digits.length) '0' ++ digits
  let fraction := decimal.digits.drop 1
  decimal.digits.take 1 ++ (if fraction.isEmpty then [] else '.' :: fraction) ++
    'e' :: (if exponent < 0 then '-' else '+') :: written

/-- The decimal text of a number. -/
def text : Binary64 → String
  | .nan => "nan"
  | .infinite negative => if negative then "-inf" else "inf"
  | .finite negative mantissa exponent =>
    let sign := if negative then ['-'] else []
    if mantissa = 0 then String.ofList (sign ++ ['0', '.', '0'])
    else
      let decimal := shortestDecimal mantissa exponent
      String.ofList
        (sign ++ if isPositional decimal.point then positional decimal else scientific decimal)

end MachineRbi.Binary64
