import GuardedConsole.Number.Binary64
import GuardedConsole.Time.Moment

/-!
# Moments counted from 1970

`ofSeconds` turns a double number of seconds since the start of 1970 into a moment, rounding to the
nearest microsecond. `ofMillis` and `ofMillisInt` start from milliseconds; the quotient by 1000 is
rounded to a double first. `later` and `earlier` move a moment by a number of milliseconds.
-/

namespace GuardedConsole.Time.Epoch

open Number

/-- Why a count is not a moment. -/
inductive EpochError where
  | notANumber
  | quotientTooLarge
  | secondsOutOfRange
  | tooLarge
  | range (e : RangeError)
deriving DecidableEq

def EpochError.failure : EpochError → Failure
  | .notANumber => .fault .badValue "Invalid value NaN (not a number)".toText
  | .quotientTooLarge =>
    .fault .outOfRange "integer division result too large for a float".toText
  | .secondsOutOfRange =>
    .fault .outOfRange "timestamp out of range for platform time_t".toText
  | .tooLarge => .fault .system "[Errno 75] Value too large for defined data type".toText
  | .range e => e.failure

def firstDay : Int := 719162

/-- Whole seconds and microseconds of `± m · 2^e` seconds. The fraction of a second is multiplied by
a million as a double and then rounded, a half to the even microsecond. -/
def splitSeconds (negative : Bool) (m : Nat) (e : Int) : Int × Nat :=
  let (num, den) := Binary64.scaled m e
  let whole : Int := num / den
  let micros := match Binary64.roundRatio false (num % den * 1000000) den with
    | .finite _ m e => let (n, d) := Binary64.scaled m e; Binary64.roundQuotient n d
    | _ => 0
  if negative then
    if micros = 0 then (-whole, 0)
    else if micros ≥ 1000000 then (-whole - 1, 0)
    else (-whole - 1, 1000000 - micros)
  else if micros ≥ 1000000 then (whole + 1, micros - 1000000)
  else (whole, micros)

def yearOfSeconds (seconds : Int) : Int :=
  Civil.yearOf (seconds / 86400 + firstDay)

/-- The moment `seconds` and `micros` after the start of 1970. The first day of the year 1 is out of
range, and a year beyond 32 bits is reported by its lowest 32 bits. -/
def ofParts (seconds : Int) (micros : Nat) : Except EpochError Moment :=
  let year := yearOfSeconds seconds
  if seconds < -0x8000000000000000 ∨ 0x8000000000000000 < seconds then .error .secondsOutOfRange
  else if year - 1900 < -0x80000000 ∨ 0x80000000 ≤ year - 1900 then .error .tooLarge
  else
    let shown := year.bmod 0x100000000
    if shown < 1 ∨ 9999 < shown then .error (.range (.year shown))
    else if yearOfSeconds (seconds - 86400) < 1 then
      .error (.range (.year (yearOfSeconds (seconds - 86400))))
    else
      let ticks := ((firstDay * 86400 + seconds) * 1000000 + micros).toNat
      if h : ticks < spanMicros then .ok ⟨ticks, none, h⟩ else .error (.range .date)

def ofSeconds : Binary64 → Except EpochError Moment
  | .nan => .error .notANumber
  | .infinite _ => .error .secondsOutOfRange
  | .finite s m e => let (seconds, micros) := splitSeconds s m e; ofParts seconds micros

def ofMillis (x : Binary64) : Except EpochError Moment :=
  ofSeconds (x.divNat 1000)

def ofMillisInt (i : Int) : Except EpochError Moment :=
  match Binary64.ofIntRatio i 1000 with
  | .infinite _ => .error .quotientTooLarge
  | seconds => ofSeconds seconds

/-- Why a moment cannot be moved by a number of milliseconds. -/
inductive StepError where
  | daysBeyondWord
  | tooManyDays (days : Nat)
  | range
deriving DecidableEq

def StepError.failure : StepError → Failure
  | .daysBeyondWord => .fault .outOfRange "Python int too large to convert to C int".toText
  | .tooManyDays days =>
    .fault .outOfRange
      ("days=".toText ++ natText days ++ "; must have magnitude <= 999999999".toText)
  | .range => RangeError.date.failure

def step (m : Moment) (back : Bool) (millis : Nat) : Except StepError Moment :=
  let days := millis / 86400000
  if 0x80000000 ≤ days then .error .daysBeyondWord
  else if 999999999 < days then .error (.tooManyDays days)
  else
    let micros : Int := millis * 1000
    match m.shift (if back then -micros else micros) with
    | some m => .ok m
    | none => .error .range

end GuardedConsole.Time.Epoch
