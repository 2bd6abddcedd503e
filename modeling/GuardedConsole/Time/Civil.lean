/-!
# Civil dates

Dates of the proleptic Gregorian calendar and their numbers, counted from 0 for the first of January
of the year 1. `Civil.ofDay` takes a day number apart: into cycles of 400, 100, 4 and 1 years, and
then into months.
-/

namespace GuardedConsole.Time

def isLeap (year : Nat) : Bool :=
  year % 4 == 0 && (year % 100 != 0 || year % 400 == 0)

def daysInMonth (year month : Nat) : Nat :=
  match month with
  | 2 => if isLeap year then 29 else 28
  | 4 | 6 | 9 | 11 => 30
  | _ => 31

def daysBeforeYear (year : Nat) : Nat :=
  let y := year - 1
  365 * y + y / 4 - y / 100 + y / 400

def daysBeforeMonth (year : Nat) : Nat → Nat
  | 0 => 0
  | 1 => 0
  | month + 2 => daysBeforeMonth year (month + 1) + daysInMonth year (month + 1)

/-- A calendar date. -/
structure Civil where
  year : Nat
  month : Nat
  day : Nat
deriving DecidableEq

namespace Civil

def dayNumber (date : Civil) : Nat :=
  daysBeforeYear date.year + daysBeforeMonth date.year date.month + (date.day - 1)

def yearOfDay (n : Nat) : Nat × Nat :=
  let quadricentury := n / 146097
  let n := n % 146097
  let century := min 3 (n / 36524)
  let n := n - century * 36524
  let quadrennium := n / 1461
  let n := n % 1461
  let year := min 3 (n / 365)
  (400 * quadricentury + 100 * century + 4 * quadrennium + year + 1, n - year * 365)

/-- Finds the month that holds the day after `n` others, counting from the month `month` whose
length, and those of the `fuel` months after it, are passed over in turn. -/
def monthFrom (year : Nat) : Nat → Nat → Nat → Nat × Nat
  | 0, month, n => (month, n)
  | fuel + 1, month, n =>
    if n < daysInMonth year month then (month, n)
    else monthFrom year fuel (month + 1) (n - daysInMonth year month)

def ofDay (n : Nat) : Civil :=
  let (year, rest) := yearOfDay n
  let (month, before) := monthFrom year 11 1 rest
  ⟨year, month, before + 1⟩

def yearOf (n : Int) : Int :=
  400 * (n / 146097) + (yearOfDay (n % 146097).toNat).1

def weekday (n : Nat) : Nat :=
  n % 7

/-- Has the ISO year 53 weeks? It has if it begins on a Thursday, or on a Wednesday and is a leap
year. -/
def hasWeek53 (year : Nat) : Bool :=
  let first := weekday (daysBeforeYear year)
  first == 3 || (first == 2 && isLeap year)

/-- The number of the Monday of the first ISO week of a year from 1 on. The year 1 begins with that
Monday, so the week never begins before the calendar does. -/
def firstMonday (year : Nat) : Nat :=
  let first := daysBeforeYear year
  let past := weekday first
  if past > 3 then first + 7 - past else first - past

end Civil

end GuardedConsole.Time
