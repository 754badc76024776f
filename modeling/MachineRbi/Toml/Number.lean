import MachineRbi.Toml.Text
import MachineRbi.Value

/-!
# Numbers, dates and times in TOML

A scalar without quotes is a date, a time, a number or one of a few words. The longest form that
fits is read; what follows it is for the reader of the collection around it to judge.
-/

namespace MachineRbi.Toml

/-- As many digits as given, and the rest. -/
def digits? (count : Nat) (cs : List Char) : Option (Nat × List Char) :=
  let digits := (cs.take count).takeWhile Char.isDigit
  if digits.length = count then
    some (digits.foldl (fun n d => 10 * n + (d.toNat - '0'.toNat)) 0, cs.drop count)
  else none

/-- The rest behind a character. -/
def after? (x : Char) : List Char → Option (List Char)
  | c :: rest => if c = x then some rest else none
  | [] => none

/-- Two digits below a limit. -/
def below? (limit : Nat) (cs : List Char) : Option (Nat × List Char) :=
  (digits? 2 cs).filter (·.1 < limit)

/-- The microseconds of a fraction, of which six digits count. -/
def fraction? (cs : List Char) : Option (Nat × List Char) :=
  match cs with
  | '.' :: rest =>
    let digits := rest.takeWhile Char.isDigit
    let counted := digits.take 6
    if digits.isEmpty then none
    else
      let value := counted.foldl (fun n d => 10 * n + (d.toNat - '0'.toNat)) 0
      some (value * Nat.pow 10 (6 - counted.length), rest.drop digits.length)
  | _ => none

/-- A time of day. -/
def time? (cs : List Char) : Option (TimeOfDay × List Char) := do
  let (hour, rest) ← below? 24 cs
  let (minute, rest) ← below? 60 (← after? ':' rest)
  let (second, rest) ← below? 60 (← after? ':' rest)
  let (microsecond, rest) := (fraction? rest).getD (0, rest)
  return (⟨hour, minute, second, microsecond⟩, rest)

/-- An offset in minutes. -/
def offset? (cs : List Char) : Option (Int × List Char) :=
  match cs with
  | 'Z' :: rest | 'z' :: rest => some (0, rest)
  | sign :: rest =>
    if sign = '+' || sign = '-' then do
      let (hours, rest) ← below? 24 rest
      let (minutes, rest) ← below? 60 (← after? ':' rest)
      let offset : Int := hours * 60 + minutes
      return (if sign = '-' then -offset else offset, rest)
    else none
  | [] => none

/-- The numbers of a date; whether the calendar has it is not asked yet. -/
def dateNumbers? (cs : List Char) : Option ((Nat × Nat × Nat) × List Char) := do
  let (year, rest) ← digits? 4 cs
  let (month, rest) ← digits? 2 (← after? '-' rest)
  let (day, rest) ← digits? 2 (← after? '-' rest)
  if 1 ≤ month && month ≤ 12 && 1 ≤ day && day ≤ 31 then return ((year, month, day), rest)
  else none

/-- The time after a date and its offset, if they are there. -/
def dayTime? (cs : List Char) : Option ((TimeOfDay × Option Int) × List Char) :=
  match cs with
  | mark :: rest =>
    if mark = 'T' || mark = 't' || mark = ' ' then do
      let (time, rest) ← time? rest
      match offset? rest with
      | some (offset, rest) => return ((time, some offset), rest)
      | none => return ((time, none), rest)
    else none
  | [] => none

/-- A moment: a date, a date with a time, or a time. -/
def moment? (cs : List Char) : Option (Except Fault (Moment × List Char)) :=
  match dateNumbers? cs with
  | some ((year, month, day), rest) =>
    match Date.make? year month day with
    | none => some (.error .malformed)
    | some date =>
      match dayTime? rest with
      | some ((time, offset?), rest) => some (.ok (.dateTime ⟨date, time, offset?⟩, rest))
      | none => some (.ok (.date date, rest))
  | none => (time? cs).map fun (time, rest) => .ok (.time time, rest)

/-- Digits of a class with single underscores between them, without the underscores. -/
def digitRun (isDigit : Char → Bool) : List Char → List Char × List Char
  | [] => ([], [])
  | '_' :: d :: rest =>
    if isDigit d then
      let (digits, rest) := digitRun isDigit rest
      (d :: digits, rest)
    else ([], '_' :: d :: rest)
  | d :: rest =>
    if isDigit d then
      let (digits, rest) := digitRun isDigit rest
      (d :: digits, rest)
    else ([], d :: rest)

/-- At least one digit of a class, the first without an underscore before it. -/
def digitRun? (isDigit : Char → Bool) (cs : List Char) : Option (List Char × List Char) :=
  match cs with
  | d :: _ => if isDigit d then some (digitRun isDigit cs) else none
  | [] => none

/-- The class of the digits of a base that a letter announces, and the base. -/
def base? (letter : Char) : Option ((Char → Bool) × Nat) :=
  match letter with
  | 'x' => some (fun c => (Text.hexValue? c).isSome, 16)
  | 'o' => some (fun c => '0' ≤ c && c ≤ '7', 8)
  | 'b' => some (fun c => c = '0' || c = '1', 2)
  | _ => none

/-- An integer with its base announced. -/
def based? (cs : List Char) : Option (Nat × List Char) :=
  match cs with
  | '0' :: letter :: rest => do
    let (isDigit, base) ← base? letter
    let (digits, rest) ← digitRun? isDigit rest
    return (digits.foldl (fun n d => base * n + (Text.hexValue? d).getD 0) 0, rest)
  | _ => none

/-- The digits before the point: a zero, or digits that do not start with one. -/
def whole? (cs : List Char) : Option (List Char × List Char) :=
  match cs with
  | '0' :: rest => some (['0'], rest)
  | cs => digitRun? Char.isDigit cs

/-- The digits after a point. -/
def places? (cs : List Char) : Option (List Char × List Char) :=
  match cs with
  | '.' :: rest => digitRun? Char.isDigit rest
  | _ => none

/-- The power of ten after an exponent mark. -/
def power? (cs : List Char) : Option (Int × List Char) :=
  match cs with
  | mark :: rest =>
    if mark = 'e' || mark = 'E' then do
      let negative := rest.head? = some '-'
      let body := if negative || rest.head? = some '+' then rest.drop 1 else rest
      let (digits, rest) ← digitRun? Char.isDigit body
      let value : Int := digits.foldl (fun n d => 10 * n + (d.toNat - '0'.toNat)) 0
      return (if negative then -value else value, rest)
    else none
  | [] => none

/-- A decimal number, with a point or an exponent or neither. -/
def decimal? (cs : List Char) : Option (Except Fault (Scalar × List Char)) := do
  let negative := cs.head? = some '-'
  let body := if negative || cs.head? = some '+' then cs.drop 1 else cs
  let (whole, rest) ← whole? body
  let places := places? rest
  let rest := (places.map (·.2)).getD rest
  let power := power? rest
  let rest := (power.map (·.2)).getD rest
  let number (digits : List Char) : Nat :=
    digits.foldl (fun n d => 10 * n + (d.toNat - '0'.toNat)) 0
  if places.isNone && power.isNone then
    if 4300 < whole.length then return .error .oversized
    let value : Int := number whole
    return .ok (.int (if negative then -value else value), rest)
  let fraction := (places.map (·.1)).getD []
  let exponent := (power.map (·.1)).getD 0 - fraction.length
  return .ok (.float (Binary64.ofDecimal negative (number (whole ++ fraction)) exponent), rest)

/-- The words for infinities and for what is not a number. -/
def floatWords : List (String × Binary64) :=
  [("inf", .infinite false), ("nan", .nan), ("+inf", .infinite false), ("-inf", .infinite true),
   ("+nan", .nan), ("-nan", .nan)]

/-- A word and the rest behind it. -/
def word? (cs : List Char) : Option (Scalar × List Char) :=
  let words := [("true", Scalar.bool true), ("false", Scalar.bool false)] ++
    floatWords.map fun (word, value) => (word, Scalar.float value)
  words.findSome? fun (word, value) =>
    if word.toList.isPrefixOf cs then some (value, cs.drop word.length) else none

/-- A scalar without quotes. -/
def readScalar : Reader Scalar := fun cs =>
  match moment? cs with
  | some result => result.map fun (moment, rest) => (.moment moment, rest)
  | none =>
    match based? cs with
    | some (value, rest) => .ok (.int value, rest)
    | none =>
      match decimal? cs with
      | some result => result
      | none =>
        match word? cs with
        | some result => .ok result
        | none => .error .malformed

end MachineRbi.Toml
