import GuardedConsole.Time.Iso

/-!
# Spelled-out moments and time stamps

The text of a moment that shows its parts one by one, as values inside lists and records are shown,
and the same for offsets. The wording of what goes wrong when an ISO text is read stands here too,
because it shows an offset that way. A time stamp is the date and the time of day with a space between
them; its year is written without zeros in front.
-/

namespace GuardedConsole.Time

open Number

def namedPart (name : String) (value : Int) : List Text :=
  if value = 0 then [] else [name.toText ++ .char '=' :: intText value]

def spelledSpan (micros : Int) : Text :=
  let days := micros.fdiv dayMicros
  let rest := micros.fmod dayMicros
  let parts := namedPart "days" days ++ namedPart "seconds" (rest / secondMicros) ++
    namedPart "microseconds" (rest % secondMicros)
  "datetime.timedelta(".toText ++
    (if parts.isEmpty then [.char '0'] else Text.joinWith ", ".toText parts) ++ [.char ')']

def Offset.spelled (offset : Offset) : Text :=
  if offset.micros = 0 then "datetime.timezone.utc".toText
  else "datetime.timezone(".toText ++ spelledSpan offset.micros ++ [.char ')']

/-- A moment: year, month, day, hour and minute, then seconds and microseconds as far as they are
not zero, then the offset. -/
def Moment.spelled (m : Moment) : Text :=
  let f := m.fields
  let parts := [f.year, f.month, f.day, f.hour, f.minute] ++
    (if f.micro ≠ 0 then [f.second, f.micro] else if f.second ≠ 0 then [f.second] else [])
  let zone := match m.offset with
    | none => []
    | some offset => ["tzinfo=".toText ++ offset.spelled]
  "datetime.datetime(".toText ++ Text.joinWith ", ".toText (parts.map natText ++ zone) ++
    [.char ')']

def Civil.spelled (date : Civil) : Text :=
  "datetime.date(".toText ++
    Text.joinWith ", ".toText ([date.year, date.month, date.day].map natText) ++ [.char ')']

def Iso.ReadError.failure (t : Text) : Iso.ReadError → Failure
  | .malformed => .fault .badValue ("Invalid isoformat string: ".toText ++ t.quoted)
  | .offsetTooLarge micros =>
    .fault .badValue ("offset must be a timedelta strictly between -timedelta(hours=24) and ".toText
      ++ "timedelta(hours=24), not ".toText ++ spelledSpan micros ++ [.char '.'])
  | .range e => e.failure

namespace Moment

def minuteStamp (m : Moment) : Text :=
  let f := m.fields
  natText f.year ++ .char '-' :: padded 2 f.month ++ .char '-' :: padded 2 f.day ++ .char ' ' ::
    Iso.minuteText f.hour f.minute

def secondStamp (m : Moment) : Text :=
  m.minuteStamp ++ .char ':' :: padded 2 m.fields.second

end Moment

end GuardedConsole.Time
