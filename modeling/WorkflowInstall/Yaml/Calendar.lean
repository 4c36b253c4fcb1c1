import WorkflowInstall.Yaml.Fault

/-!
# Dates and times

Days of the calendar and times of a day, as timestamps name them.

## Main Definitions

* `Yaml.Date`, `Yaml.DateTime` — a day, and a moment of a day
* `Yaml.Date.check`, `Yaml.DateTime.check` — refuse what does not exist
* `Yaml.Date.iso`, `Yaml.DateTime.iso` — the written form
* `Yaml.DateTime.instant` — the moment in universal time
-/

namespace WorkflowInstall.Yaml

/-- A day. -/
structure Date where
  year : Nat
  month : Nat
  day : Nat
  deriving DecidableEq, Repr

/-- A moment of a day. -/
structure DateTime where
  date : Date
  hour : Nat
  minute : Nat
  second : Nat
  microsecond : Nat
  /-- The distance from universal time in minutes, when it is known. -/
  offset : Option Int
  deriving DecidableEq, Repr

/-- Whether a year has a leap day. -/
def isLeapYear (year : Nat) : Bool :=
  year % 4 == 0 && (year % 100 != 0 || year % 400 == 0)

/-- The number of days of a month. -/
def daysOfMonth (year month : Nat) : Nat :=
  if month = 2 then if isLeapYear year then 29 else 28
  else if month = 4 ∨ month = 6 ∨ month = 9 ∨ month = 11 then 30
  else 31

/-- Refuses a day that does not exist. -/
def Date.check (d : Date) : Except CalendarProblem Date :=
  if d.year = 0 then .error .yearZero
  else if d.month = 0 ∨ 12 < d.month then .error .month
  else if d.day = 0 ∨ daysOfMonth d.year d.month < d.day then .error .day
  else .ok d

/-- Refuses a moment that does not exist. The distance from universal time is looked at first, then
the day, then the time. -/
def DateTime.check (t : DateTime) : Except CalendarProblem DateTime := do
  match t.offset with
  | some minutes => if 1440 ≤ minutes.natAbs then throw (.offset minutes)
  | none => pure ()
  let _ ← t.date.check
  if 24 ≤ t.hour then throw .hour
  if 60 ≤ t.minute then throw .minute
  if 60 ≤ t.second then throw .second
  return t

/-- The written form of a day. -/
def Date.iso (d : Date) : Text :=
  Text.padded 4 d.year ++ "-" ++ Text.padded 2 d.month ++ "-" ++ Text.padded 2 d.day

/-- The written form of a distance from universal time. -/
def offsetText (minutes : Int) : Text :=
  let sign := if minutes < 0 then '-' else '+'
  sign :: (Text.padded 2 (minutes.natAbs / 60) ++ ":" ++ Text.padded 2 (minutes.natAbs % 60))

/-- The written form of a moment, with a sign between the day and the time. -/
def DateTime.iso (sign : Char) (t : DateTime) : Text :=
  let fraction := if t.microsecond = 0 then [] else '.' :: Text.padded 6 t.microsecond
  let zone := match t.offset with
    | some minutes => offsetText minutes
    | none => []
  t.date.iso ++ [sign] ++ Text.padded 2 t.hour ++ ":" ++ Text.padded 2 t.minute ++ ":" ++
    Text.padded 2 t.second ++ fraction ++ zone

/-- The number of days before a day. -/
def Date.ordinal (d : Date) : Nat :=
  let past := d.year - 1
  let months := (List.range (d.month - 1)).map fun m => daysOfMonth d.year (m + 1)
  past * 365 + past / 4 - past / 100 + past / 400 + months.foldl (· + ·) 0 + d.day

/-- A moment in universal time, in microseconds. -/
def DateTime.instant (t : DateTime) : Int :=
  let minutes : Int := ((t.date.ordinal * 24 + t.hour) * 60 + t.minute : Nat) - t.offset.getD 0
  (minutes * 60 + t.second) * 1000000 + t.microsecond

end WorkflowInstall.Yaml
