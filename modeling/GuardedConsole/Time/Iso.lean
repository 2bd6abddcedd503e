import GuardedConsole.Time.Moment

/-!
# ISO texts of moments

`Iso.write` writes a moment as `YYYY-MM-DD`, a separator and `HH:MM:SS`, followed by six digits of
fraction if it has one and by its offset if it has one. `Iso.read` reads that form and much more:
dates without hyphens, week dates, any separator, times without colons, fractions after a point or
a comma, and offsets down to microseconds.
-/

namespace GuardedConsole.Time.Iso

open Number

/-! ### Writing -/

def dateText (date : Civil) : Text :=
  padded 4 date.year ++ .char '-' :: padded 2 date.month ++ .char '-' :: padded 2 date.day

def fractionText (micro : Nat) : Text :=
  if micro = 0 then [] else .char '.' :: padded 6 micro

def minuteText (hour minute : Nat) : Text :=
  padded 2 hour ++ .char ':' :: padded 2 minute

def offsetText (offset : Offset) : Text :=
  let micros := offset.micros.natAbs
  let seconds := micros / secondMicros
  let micro := micros % secondMicros
  .char (if offset.micros < 0 then '-' else '+') ::
    minuteText (seconds / 3600) (seconds / 60 % 60) ++
    (if seconds % 60 = 0 ∧ micro = 0 then []
     else .char ':' :: padded 2 (seconds % 60) ++ fractionText micro)

/-- How much of the time of day is written. -/
inductive Precision where
  | full
  | hours
  | minutes
  | seconds
  | milliseconds
  | microseconds
deriving DecidableEq

def Precision.ofName? (name : Text) : Option Precision :=
  if name = "auto".toText then some .full
  else if name = "hours".toText then some .hours
  else if name = "minutes".toText then some .minutes
  else if name = "seconds".toText then some .seconds
  else if name = "milliseconds".toText then some .milliseconds
  else if name = "microseconds".toText then some .microseconds
  else none

def timeText (f : Fields) : Precision → Text
  | .hours => padded 2 f.hour
  | .minutes => minuteText f.hour f.minute
  | .seconds => minuteText f.hour f.minute ++ .char ':' :: padded 2 f.second
  | .milliseconds =>
    minuteText f.hour f.minute ++ .char ':' :: padded 2 f.second ++ .char '.' ::
      padded 3 (f.micro / 1000)
  | .microseconds =>
    minuteText f.hour f.minute ++ .char ':' :: padded 2 f.second ++ .char '.' :: padded 6 f.micro
  | .full => minuteText f.hour f.minute ++ .char ':' :: padded 2 f.second ++ fractionText f.micro

def writeWith (separator : CodePoint) (precision : Precision) (m : Moment) : Text :=
  let f := m.fields
  dateText m.date ++ separator :: timeText f precision ++
    match m.offset with
    | none => []
    | some offset => offsetText offset

def write (m : Moment) : Text :=
  writeWith 'T' .full m

/-! ### Reading -/

/-- Why a text is not read as a moment. -/
inductive ReadError where
  | malformed
  | offsetTooLarge (micros : Int)
  | range (e : RangeError)
deriving DecidableEq

def peek : Text → CodePoint
  | [] => '\x00'
  | c :: _ => c

def digits : Nat → Nat → Text → Option (Nat × Text)
  | 0, n, t => some (n, t)
  | _ + 1, _, [] => none
  | count + 1, n, c :: t =>
    if Text.isAsciiDigit c then digits count (10 * n + digitOf c) t else none

/-- The length of the date part of a text of at least seven characters. A hyphen after the year
promises ten characters, or eight for a week date without a day. Without hyphens it is eight, or
seven for a week without a day; whether a week is followed by a day is told by the parity of the
number of digits that follow. -/
def dateLength (t : Text) : Nat :=
  let charAt (i : Nat) := peek (t.drop i)
  if t.length = 7 then 7
  else if charAt 4 = '-' then
    if charAt 5 = 'W' then
      if charAt 8 = '-' then if Text.isAsciiDigit (charAt 10) then 8 else 10
      else 8
    else 10
  else if charAt 4 = 'W' then
    let last := 7 + ((t.drop 7).takeWhile Text.isAsciiDigit).length
    if last < 9 then last else if last % 2 = 0 then 7 else 8
  else 8

/-- The date of a day of an ISO week. The weeks of the year 0 lie before the calendar begins: a day
of them is read as a date of the year 1 in no month, which no moment has. -/
def ofWeek (year week day : Nat) : Option Civil :=
  if week = 0 ∨ 53 < week ∨ (week = 53 ∧ !Civil.hasWeek53 year) then none
  else if day = 0 ∨ 7 < day then none
  else if year = 0 then some ⟨1, 0, 1⟩
  else some (Civil.ofDay (Civil.firstMonday year + (week - 1) * 7 + (day - 1)))

def hyphen (hyphens : Bool) (t : Text) : Option Text :=
  match hyphens, t with
  | false, t => some t
  | true, .char '-' :: t => some t
  | true, _ => none

def readDate (t : Text) : Option Civil := do
  let (year, t) ← digits 4 0 t
  let hyphens := peek t == '-'
  let t := if hyphens then t.drop 1 else t
  if peek t = 'W' then
    let (week, t) ← digits 2 0 (t.drop 1)
    if t.isEmpty then ofWeek year week 1
    else
      let t ← hyphen hyphens t
      let (day, _) ← digits 1 0 t
      ofWeek year week day
  else
    let (month, t) ← digits 2 0 t
    let t ← hyphen hyphens t
    let (day, _) ← digits 2 0 t
    some ⟨year, month, day⟩

/-- A time of day or an offset as read, and whether the text ended with it. -/
structure Clock where
  hour : Nat
  minute : Nat
  second : Nat
  micro : Nat
  atEnd : Bool
deriving DecidableEq

def Clock.seconds (k : Clock) : Nat :=
  (k.hour * 60 + k.minute) * 60 + k.second

/-- Reads a fraction: up to six of the `length` characters before the end of the part count, further
digits are passed over. -/
def readFraction (length : Nat) (t : Text) : Option (Nat × Bool) := do
  let count := min length 6
  let (n, t) ← digits count 0 t
  let rest := t.dropWhile Text.isAsciiDigit
  some (n * Nat.pow 10 (6 - count), peek rest == '\x00')

def Clock.put (k : Clock) (index value : Nat) : Clock :=
  match index with
  | 0 => { k with hour := value }
  | 1 => { k with minute := value }
  | _ => { k with second := value }

def isSpent (length : Nat) (next : CodePoint) : Bool :=
  length == 0 || (length == 1 && next.toNat < 128)

/-- Reads the components of a clock from the `index`-th on. The part to read has `length` characters
and `t` goes on after it. A single ASCII character may stand between the last component and the end
of the part; then the part did not end with the reading. -/
def readComponents (k : Clock) (colons : Bool) : Nat → Nat → Nat → Text → Option Clock
  | 0, _, length, t => do
    let (micro, atEnd) ← readFraction length t
    some { k with micro := micro, atEnd := atEnd }
  | fuel + 1, index, length, t => do
    let (value, t) ← digits 2 0 t
    let k := k.put index value
    let length := length - 2
    let next := peek t
    let colons := if index = 0 then next == ':' else colons
    if isSpent length next then some { k with atEnd := next == '\x00' }
    else if colons && next == ':' then
      readComponents k colons fuel (index + 1) (length - 1) (t.drop 1)
    else if next == '.' || next == ',' then
      let (micro, atEnd) ← readFraction (length - 1) (t.drop 1)
      some { k with micro := micro, atEnd := atEnd }
    else if colons then none
    else readComponents k colons fuel (index + 1) length t

def readClock (length : Nat) (t : Text) : Option Clock :=
  readComponents ⟨0, 0, 0, 0, true⟩ true 3 0 length t

def beginsOffset (c : CodePoint) : Bool :=
  c == '+' || c == '-' || c == 'Z'

def readTime (t : Text) : Option (Clock × Option (Int × Int)) := do
  let length := (t.takeWhile fun c => !beginsOffset c).length
  let clock ← readClock length t
  match t.drop length with
  | [] => if clock.atEnd then some (clock, none) else none
  | .char 'Z' :: rest => if peek rest = '\x00' then some (clock, some (0, 0)) else none
  | sign :: rest =>
    let offset ← readClock rest.length rest
    if offset.atEnd then
      let unit : Int := if sign = '-' then -1 else 1
      some (clock, some (unit * offset.seconds, unit * offset.micro))
    else none

/-- The offset of a number of seconds and microseconds. Without seconds it is that of universal
time. -/
def makeOffset (seconds micros : Int) : Except ReadError Offset :=
  if seconds = 0 then .ok .utc
  else
    let total := seconds * secondMicros + micros
    if h : total.natAbs < dayMicros then .ok ⟨total, h⟩ else .error (.offsetTooLarge total)

def assemble (date : Civil) (clock : Clock) (offset : Option (Int × Int)) :
    Except ReadError Moment := do
  let offset ← match offset with
    | none => pure none
    | some (seconds, micros) => some <$> makeOffset seconds micros
  let fields : Fields :=
    { year := date.year, month := date.month, day := date.day, hour := clock.hour
      minute := clock.minute, second := clock.second, micro := clock.micro }
  match Moment.ofFields fields offset with
  | .ok m => .ok m
  | .error e => .error (.range e)

def read (t : Text) : Except ReadError Moment :=
  if t.length < 7 then .error .malformed
  else
    let length := dateLength t
    match readDate (t.take length) with
    | none => .error .malformed
    | some date =>
      match t.drop length with
      | [] => assemble date ⟨0, 0, 0, 0, true⟩ none
      | _ :: time =>
        match readTime time with
        | none => .error .malformed
        | some (clock, offset) => assemble date clock offset

end GuardedConsole.Time.Iso
