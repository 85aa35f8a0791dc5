import RepoAtlas.Decimal.Rounding

/-! # Dates and times

A day, a time of day, or both, perhaps with an offset from universal time. The text of a moment is
what the calendar standard prescribes; inside a list a moment is written as the call that makes it.
-/

namespace RepoAtlas

/-- A day. -/
structure Day where
  year : Nat
  month : Nat
  day : Nat
  deriving DecidableEq, Repr

/-- A time of day. -/
structure Clock where
  hour : Nat
  minute : Nat
  second : Nat
  micros : Nat
  deriving DecidableEq, Repr

/-- A date, a time, or both. -/
inductive Moment where
  | date (day : Day)
  | time (clock : Clock)
  /-- The offset is in minutes. -/
  | dateTime (day : Day) (clock : Clock) (offset : Option Int)
  deriving DecidableEq, Repr

/-- Is the year a leap year? -/
def isLeap (year : Nat) : Bool := (year % 4 = 0 && year % 100 ≠ 0) || year % 400 = 0

/-- The number of days of a month. -/
def daysIn (year month : Nat) : Nat :=
  if month = 2 then (if isLeap year then 29 else 28)
  else if [4, 6, 9, 11].contains month then 30
  else 31

/-- Is there such a day? -/
def Day.exists (d : Day) : Bool :=
  1 ≤ d.year && 1 ≤ d.month && d.month ≤ 12 && 1 ≤ d.day && d.day ≤ daysIn d.year d.month

/-- A number with zeros in front up to the width. -/
def zeroPadded (width n : Nat) : String := String.ofList (Decimal.padded width n)

/-- A day as year, month and day. -/
def Day.text (d : Day) : String :=
  zeroPadded 4 d.year ++ "-" ++ zeroPadded 2 d.month ++ "-" ++ zeroPadded 2 d.day

/-- A time as hours, minutes, seconds and, if there are any, microseconds. -/
def Clock.text (c : Clock) : String :=
  zeroPadded 2 c.hour ++ ":" ++ zeroPadded 2 c.minute ++ ":" ++ zeroPadded 2 c.second ++
    if c.micros = 0 then "" else "." ++ zeroPadded 6 c.micros

/-- An offset with its sign. -/
def offsetText (minutes : Int) : String :=
  (if minutes < 0 then "-" else "+") ++ zeroPadded 2 (minutes.natAbs / 60) ++ ":" ++
    zeroPadded 2 (minutes.natAbs % 60)

namespace Moment

/-- The text of a moment. -/
def text : Moment → String
  | .date d => d.text
  | .time c => c.text
  | .dateTime d c offset => d.text ++ " " ++ c.text ++ (offset.map offsetText).getD ""

/-- The name of the kind of a moment. -/
def kindName : Moment → String
  | .date _ => "datetime.date"
  | .time _ => "datetime.time"
  | .dateTime _ _ _ => "datetime.datetime"

/-- The parts of a time that a call names: those at the end are left out while they are zero. -/
def clockParts (c : Clock) : List Nat :=
  [c.hour, c.minute] ++
    if c.micros ≠ 0 then [c.second, c.micros]
    else if c.second ≠ 0 then [c.second]
    else []

/-- The call that makes an offset. An offset is counted from the day before if it is negative. -/
def offsetCall (minutes : Int) : String :=
  if minutes = 0 then "datetime.timezone.utc"
  else
    let seconds (n : Int) : String := "seconds=" ++ toString n
    "datetime.timezone(datetime.timedelta(" ++
      (if minutes < 0 then "days=-1, " ++ seconds (minutes * 60 + 86400)
       else seconds (minutes * 60)) ++ "))"

/-- The call that makes a moment. -/
def call (m : Moment) : String :=
  let dayParts (d : Day) : List Nat := [d.year, d.month, d.day]
  let arguments : List String :=
    match m with
    | .date d => (dayParts d).map toString
    | .time c => (clockParts c).map toString
    | .dateTime d c offset =>
      (dayParts d ++ clockParts c).map toString ++
        (offset.map fun minutes => "tzinfo=" ++ offsetCall minutes).toList
  m.kindName ++ "(" ++ ", ".intercalate arguments ++ ")"

end Moment

end RepoAtlas
