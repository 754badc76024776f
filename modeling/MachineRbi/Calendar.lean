
/-!
# Dates and times

Days of the Gregorian calendar from year 1 to year 9999, times of day down to the microsecond,
and points in time with or without an offset from Greenwich. `Moment` is any of the three; its
`text` is the ISO form with a blank before the time, and `written` is its form inside a list or a
mapping.
-/

namespace MachineRbi

/-- A day of the calendar. -/
structure Date where
  year : Nat
  month : Nat
  day : Nat
  deriving DecidableEq, Repr

/-- A time of day. -/
structure TimeOfDay where
  hour : Nat
  minute : Nat
  second : Nat
  microsecond : Nat
  deriving DecidableEq, Repr

/-- A day and a time of day, with the offset from Greenwich in minutes when it is known. -/
structure DateTime where
  date : Date
  time : TimeOfDay
  offset? : Option Int
  deriving DecidableEq, Repr

/-- A day, a time of day, or both. -/
inductive Moment where
  | date (date : Date)
  | time (time : TimeOfDay)
  | dateTime (dateTime : DateTime)
  deriving DecidableEq, Repr

/-- A year with a 29th of February. -/
def isLeapYear (year : Nat) : Bool :=
  year % 4 = 0 && (year % 100 ≠ 0 || year % 400 = 0)

/-- The number of days of a month. -/
def daysInMonth (year month : Nat) : Nat :=
  if month = 2 then (if isLeapYear year then 29 else 28)
  else if month = 4 || month = 6 || month = 9 || month = 11 then 30
  else 31

/-- The date with these numbers, if the calendar has it. -/
def Date.make? (year month day : Nat) : Option Date :=
  if 1 ≤ year && year ≤ 9999 && 1 ≤ month && month ≤ 12 && 1 ≤ day &&
      day ≤ daysInMonth year month then
    some ⟨year, month, day⟩
  else none

/-- The time of day with these numbers, if the clock shows it. -/
def TimeOfDay.make? (hour minute second microsecond : Nat) : Option TimeOfDay :=
  if hour < 24 && minute < 60 && second < 60 && microsecond < 1000000 then
    some ⟨hour, minute, second, microsecond⟩
  else none

/-- The days before a date, counted from the start of year 1. -/
def Date.dayNumber (date : Date) : Nat :=
  let past := date.year - 1
  let months := (List.range (date.month - 1)).map fun month => daysInMonth date.year (month + 1)
  365 * past + past / 4 - past / 100 + past / 400 + months.foldr Nat.add 0 + date.day

/-- The microseconds since midnight. -/
def TimeOfDay.microseconds (time : TimeOfDay) : Nat :=
  ((time.hour * 60 + time.minute) * 60 + time.second) * 1000000 + time.microsecond

/-- The microseconds since the start of year 1 on the local clock. -/
def DateTime.local (moment : DateTime) : Nat :=
  moment.date.dayNumber * 86400000000 + moment.time.microseconds

/-- The microseconds since the start of year 1 at Greenwich, for a given offset. -/
def DateTime.instant (moment : DateTime) (offset : Int) : Int :=
  moment.local - offset * 60000000

/-- The same point in time; a local time never equals one with an offset. -/
def DateTime.same (a b : DateTime) : Bool :=
  match a.offset?, b.offset? with
  | none, none => a.local = b.local
  | some x, some y => a.instant x = b.instant y
  | _, _ => false

/-- The same moment. -/
def Moment.same : Moment → Moment → Bool
  | .date a, .date b => a = b
  | .time a, .time b => a = b
  | .dateTime a, .dateTime b => a.same b
  | _, _ => false

/-- A number with zeros in front up to the width. -/
def padded (width number : Nat) : String :=
  let digits := Nat.toDigits 10 number
  String.ofList (List.replicate (width - digits.length) '0' ++ digits)

/-- Year, month and day with hyphens between them. -/
def Date.text (date : Date) : String :=
  padded 4 date.year ++ "-" ++ padded 2 date.month ++ "-" ++ padded 2 date.day

/-- Hours, minutes and seconds, and the microseconds if there are any. -/
def TimeOfDay.text (time : TimeOfDay) : String :=
  padded 2 time.hour ++ ":" ++ padded 2 time.minute ++ ":" ++ padded 2 time.second ++
    if time.microsecond = 0 then "" else "." ++ padded 6 time.microsecond

/-- A signed offset in hours and minutes. -/
def offsetText (offset : Int) : String :=
  let minutes := offset.natAbs
  (if offset < 0 then "-" else "+") ++ padded 2 (minutes / 60) ++ ":" ++ padded 2 (minutes % 60)

/-- The date, the time and the offset if there is one. -/
def DateTime.text (moment : DateTime) : String :=
  moment.date.text ++ " " ++ moment.time.text ++
    match moment.offset? with
    | some offset => offsetText offset
    | none => ""

/-- The text of a moment on its own. -/
def Moment.text : Moment → String
  | .date day => day.text
  | .time clock => clock.text
  | .dateTime point => point.text

/-- The numbers of a date in a row. -/
def Date.numbers (date : Date) : List Nat :=
  [date.year, date.month, date.day]

/-- The numbers of a time in a row, without seconds and microseconds that are zero. -/
def TimeOfDay.numbers (time : TimeOfDay) : List Nat :=
  if time.microsecond ≠ 0 then [time.hour, time.minute, time.second, time.microsecond]
  else if time.second ≠ 0 then [time.hour, time.minute, time.second]
  else [time.hour, time.minute]

/-- Numbers with commas between them. -/
def writtenNumbers (numbers : List Nat) : String :=
  ", ".intercalate (numbers.map toString)

/-- The form of an offset inside a written moment: whole days first, and never a negative number
of seconds. -/
def writtenOffset (offset : Int) : String :=
  let seconds := offset * 60
  if offset = 0 then "datetime.timezone.utc"
  else if offset < 0 then
    "datetime.timezone(datetime.timedelta(days=-1, seconds=" ++ toString (seconds + 86400) ++ "))"
  else "datetime.timezone(datetime.timedelta(seconds=" ++ toString seconds ++ "))"

/-- The form of a moment inside a list or a mapping. -/
def Moment.written : Moment → String
  | .date day => "datetime.date(" ++ writtenNumbers day.numbers ++ ")"
  | .time clock => "datetime.time(" ++ writtenNumbers clock.numbers ++ ")"
  | .dateTime point =>
    "datetime.datetime(" ++ writtenNumbers (point.date.numbers ++ point.time.numbers) ++
      (match point.offset? with
      | some offset => ", tzinfo=" ++ writtenOffset offset
      | none => "") ++ ")"

end MachineRbi
