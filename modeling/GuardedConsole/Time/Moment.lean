import GuardedConsole.Failure
import GuardedConsole.Number.Digits
import GuardedConsole.Time.Civil

/-!
# Moments

A moment is a date with a time of day, counted in microseconds from the start of the year 1, and
optionally a fixed offset from universal time. `Moment.ofFields` builds one from its parts,
`Moment.fields` takes it apart, `Moment.shift` moves it and `Moment.isBefore?` orders two of them:
a moment with an offset and one without cannot be compared.
-/

namespace GuardedConsole.Time

def secondMicros : Nat := 1000000

def dayMicros : Nat := 86400000000

def dayCount : Nat := 3652059

def spanMicros : Nat := dayCount * dayMicros

/-- An offset from universal time in microseconds, less than a day either way. -/
structure Offset where
  micros : Int
  bounded : micros.natAbs < dayMicros
deriving DecidableEq

def Offset.utc : Offset := ⟨0, by decide⟩

/-- A date and a time of day, with or without an offset from universal time. -/
structure Moment where
  ticks : Nat
  offset : Option Offset
  inSpan : ticks < spanMicros
deriving DecidableEq

/-- The parts of a date and a time of day. -/
structure Fields where
  year : Nat
  month : Nat := 1
  day : Nat := 1
  hour : Nat := 0
  minute : Nat := 0
  second : Nat := 0
  micro : Nat := 0
deriving DecidableEq

/-- Why parts do not make a moment, or why a moment cannot be moved. -/
inductive RangeError where
  | year (value : Int)
  | month
  | day
  | hour
  | minute
  | second
  | micro
  | date
deriving DecidableEq

namespace RangeError

def message : RangeError → Text
  | year value => "year ".toText ++ Number.intText value ++ " is out of range".toText
  | month => "month must be in 1..12".toText
  | day => "day is out of range for month".toText
  | hour => "hour must be in 0..23".toText
  | minute => "minute must be in 0..59".toText
  | second => "second must be in 0..59".toText
  | micro => "microsecond must be in 0..999999".toText
  | date => "date value out of range".toText

def failure : RangeError → Failure
  | date => .fault .outOfRange (message date)
  | other => .fault .badValue other.message

end RangeError

namespace Fields

def fault? (f : Fields) : Option RangeError :=
  if f.year < 1 ∨ 9999 < f.year then some (.year f.year)
  else if f.month < 1 ∨ 12 < f.month then some .month
  else if f.day < 1 ∨ daysInMonth f.year f.month < f.day then some .day
  else if 24 ≤ f.hour then some .hour
  else if 60 ≤ f.minute then some .minute
  else if 60 ≤ f.second then some .second
  else if secondMicros ≤ f.micro then some .micro
  else none

def ticks (f : Fields) : Nat :=
  (Civil.mk f.year f.month f.day).dayNumber * dayMicros +
    ((f.hour * 60 + f.minute) * 60 + f.second) * secondMicros + f.micro

end Fields

namespace Moment

def ofFields (f : Fields) (offset : Option Offset) : Except RangeError Moment :=
  match f.fault? with
  | some e => .error e
  | none => if h : f.ticks < spanMicros then .ok ⟨f.ticks, offset, h⟩ else .error .date

def dayNumber (m : Moment) : Nat :=
  m.ticks / dayMicros

def date (m : Moment) : Civil :=
  Civil.ofDay m.dayNumber

def fields (m : Moment) : Fields :=
  let date := m.date
  let rest := m.ticks % dayMicros
  let seconds := rest / secondMicros
  { year := date.year, month := date.month, day := date.day
    hour := seconds / 3600, minute := seconds / 60 % 60, second := seconds % 60
    micro := rest % secondMicros }

def shift (m : Moment) (micros : Int) : Option Moment :=
  if h : 0 ≤ m.ticks + micros ∧ (m.ticks + micros).toNat < spanMicros then
    some ⟨(m.ticks + micros).toNat, m.offset, h.2⟩
  else none

/-- The microseconds from the start of the year 1 in universal time, for a moment whose offset is
`offset`. -/
def utcTicks (m : Moment) (offset : Offset) : Int :=
  m.ticks - offset.micros

/-- Is the first moment before the second? None if only one of them has an offset. -/
def isBefore? (a b : Moment) : Option Bool :=
  match a.offset, b.offset with
  | none, none => some (a.ticks < b.ticks)
  | some x, some y => some (a.utcTicks x < b.utcTicks y)
  | _, _ => none

def sameInstant (a b : Moment) : Bool :=
  match a.offset, b.offset with
  | none, none => a.ticks == b.ticks
  | some x, some y => a.utcTicks x == b.utcTicks y
  | _, _ => false

def mixedOffsets : Failure :=
  .fault .wrongType "can't compare offset-naive and offset-aware datetimes".toText

def isBefore (a b : Moment) : Except Failure Bool :=
  match a.isBefore? b with
  | some r => .ok r
  | none => .error mixedOffsets

end Moment

end GuardedConsole.Time
