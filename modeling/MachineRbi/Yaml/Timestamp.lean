import MachineRbi.Calendar
import MachineRbi.Yaml.Token

/-!
# Points in time in YAML

A date, or a date, a time and perhaps an offset, separated by a `T` or by blanks. The parts of the
text are read first; whether the calendar has such a day is asked afterwards.
-/

namespace MachineRbi.Yaml

/-- A time of day as it is written, with the digits of its fraction. -/
structure WrittenTime where
  hour : Nat
  minute : Nat
  second : Nat
  fraction : List Char
  /-- The offset in minutes. -/
  offset? : Option Int

/-- A point in time as it is written. -/
structure WrittenTimestamp where
  year : Nat
  month : Nat
  day : Nat
  /-- Month and day have two digits each. -/
  padded : Bool
  time? : Option WrittenTime

/-- The number that decimal digits write. -/
def decimal (digits : List Char) : Nat :=
  digits.foldl (fun n d => 10 * n + (d.toNat - '0'.toNat)) 0

/-- As many digits as there are up to a limit, but no fewer than the least number, and the rest. -/
def takeDigits (least most : Nat) (cs : List Char) : Option (List Char × List Char) :=
  let digits := (cs.take most).takeWhile Char.isDigit
  if least ≤ digits.length then some (digits, cs.drop digits.length) else none

/-- The rest after a character. -/
def after (x : Char) : List Char → Option (List Char)
  | c :: rest => if c = x then some rest else none
  | [] => none

/-- A blank or a tab. -/
def isGap (c : Char) : Bool :=
  c = ' ' || c = '\t'

/-- The offset at the end of a point in time, in minutes; nothing if none is written. -/
def readOffset (cs : List Char) : Option (Option Int) :=
  if cs.isEmpty then some none
  else
    match cs.dropWhile isGap with
    | ['Z'] => some (some 0)
    | sign :: rest =>
      if sign = '+' || sign = '-' then do
        let (hours, rest) ← takeDigits 1 2 rest
        let minutes ←
          if rest.isEmpty then some 0
          else do
            let (minutes, rest) ← takeDigits 2 2 (← after ':' rest)
            if rest.isEmpty then some (decimal minutes) else none
        let offset : Int := decimal hours * 60 + minutes
        some (some (if sign = '-' then -offset else offset))
      else none
    | [] => none

/-- The time after the gap that follows a date. -/
def readTime (cs : List Char) : Option WrittenTime := do
  let (hour, rest) ← takeDigits 1 2 cs
  let (minute, rest) ← takeDigits 2 2 (← after ':' rest)
  let (second, rest) ← takeDigits 2 2 (← after ':' rest)
  let (fraction, rest) :=
    match rest with
    | '.' :: rest => (rest.takeWhile Char.isDigit, rest.dropWhile Char.isDigit)
    | rest => ([], rest)
  let offset? ← readOffset rest
  return ⟨decimal hour, decimal minute, decimal second, fraction, offset?⟩

/-- The rest after the gap between a date and a time. -/
def afterGap : List Char → Option (List Char)
  | 'T' :: rest | 't' :: rest => some rest
  | c :: rest => if isGap c then some (rest.dropWhile isGap) else none
  | [] => none

/-- The parts of a point in time. -/
def WrittenTimestamp.read? (cs : List Char) : Option WrittenTimestamp := do
  let (year, rest) ← takeDigits 4 4 cs
  let (month, rest) ← takeDigits 1 2 (← after '-' rest)
  let (day, rest) ← takeDigits 1 2 (← after '-' rest)
  let time? ← if rest.isEmpty then some none else ((afterGap rest).bind readTime).map some
  return ⟨decimal year, decimal month, decimal day, month.length = 2 && day.length = 2, time?⟩

/-- The form of a point in time: a date on its own has two digits for month and day. -/
def isTimestampForm (cs : List Char) : Bool :=
  match WrittenTimestamp.read? cs with
  | some written => written.time?.isSome || written.padded
  | none => false

/-- The microseconds that the digits of a fraction write; digits beyond the sixth are dropped. -/
def microseconds (fraction : List Char) : Nat :=
  let digits := fraction.take 6
  decimal digits * Nat.pow 10 (6 - digits.length)

/-- The moment that is written, if calendar and clock have it and the offset is less than a day. -/
def WrittenTimestamp.moment? (written : WrittenTimestamp) : Option Moment := do
  let date ← Date.make? written.year written.month written.day
  match written.time? with
  | none => return .date date
  | some time =>
    let clock ← TimeOfDay.make? time.hour time.minute time.second (microseconds time.fraction)
    if time.offset?.any fun offset => 1440 ≤ offset.natAbs then none
    else return .dateTime ⟨date, clock, time.offset?⟩

/-- The moment that a text says; one line end after it does not count. -/
def readTimestamp (cs : List Char) : Except Fault Moment := do
  let body := if cs.getLast? = some '\n' then cs.dropLast else cs
  let some written := WrittenTimestamp.read? body | throw .notTimestamp
  let some moment := written.moment? | throw .impossible
  return moment

end MachineRbi.Yaml
