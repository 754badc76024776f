import MachineRbi.Binary64.Decimal
import MachineRbi.Calendar
import MachineRbi.Text.Quoted

/-!
# Scalars

Values without parts. They are the leaves of a document and the keys of its mappings, where numbers
of equal value are one key, and so are `true` and `1`. Every scalar has a text of its own and a
written form that stands for it inside a list or a mapping, except that an integer of more than
4300 digits has neither.
-/

namespace MachineRbi

/-- Why a value cannot be written. -/
inductive Unwritable where
  /-- An integer has more than 4300 digits. -/
  | longNumber
  /-- Values stand inside others beyond what the stack has room for. -/
  | tooDeep
  deriving DecidableEq, Repr

/-- A value without parts. -/
inductive Scalar where
  | null
  | bool (value : Bool)
  | int (value : Int)
  | float (value : Binary64)
  | str (value : WideText)
  | bytes (value : List UInt8)
  | moment (value : Moment)
  deriving DecidableEq, Repr

namespace Scalar

/-- The exact value of a finite number, as an integer over a positive denominator. -/
def ratio? : Scalar → Option (Int × Nat)
  | .bool value => some (if value then 1 else 0, 1)
  | .int value => some (value, 1)
  | .float value => value.ratio?
  | _ => none

/-- The two scalars are the same key. Not a number is never the same as anything. -/
def same (a b : Scalar) : Bool :=
  match a, b with
  | .null, .null => true
  | .str x, .str y => x = y
  | .bytes x, .bytes y => x = y
  | .moment x, .moment y => x.same y
  | .float (.infinite x), .float (.infinite y) => x = y
  | a, b =>
    match a.ratio?, b.ratio? with
    | some (p, q), some (r, s) => p * s = r * q
    | _, _ => false

/-- The scalar stands for something rather than nothing: it is not null, false, zero or empty. -/
def isTruthy : Scalar → Bool
  | .null => false
  | .bool value => value
  | .int value => value ≠ 0
  | .float value => !value.isZero
  | .str value => value ≠ ""
  | .bytes value => !value.isEmpty
  | .moment _ => true

/-- The decimal digits of an integer, of which there can be 4300. -/
def digits (value : Int) : Except Unwritable String :=
  if value.natAbs < Nat.pow 10 4300 then .ok (toString value) else .error .longNumber

/-- The form of a scalar inside a list or a mapping. -/
def written : Scalar → Except Unwritable String
  | .null => .ok "None"
  | .bool value => .ok (if value then "True" else "False")
  | .int value => digits value
  | .float value => .ok value.text
  | .str value => .ok (Text.quoted value)
  | .bytes value => .ok (Text.quotedBytes value)
  | .moment value => .ok value.written

/-- The text of a scalar on its own. -/
def text : Scalar → Except Unwritable WideText
  | .str value => .ok value
  | .moment value => .ok value.text
  | scalar => scalar.written.map WideText.ofString

end Scalar

end MachineRbi
