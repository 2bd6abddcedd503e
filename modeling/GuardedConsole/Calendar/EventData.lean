import GuardedConsole.Calendar.Event
import GuardedConsole.Time.Epoch
import GuardedConsole.Value.Dictionary
import GuardedConsole.Value.Display

/-!
# Events from data

`Event.build` makes an event of the entries that describe it. A missing id is made from the next
number, a missing start is the current moment, and a missing end is an hour after the start.
`Event.entries` describes an event in turn.
-/

namespace GuardedConsole

open Time

/-- The moment that a value denotes: a moment itself, milliseconds since 1970, or ISO text. Nothing
stays nothing. -/
def Value.toMoment? : Value → Except Failure (Option Moment)
  | .null => .ok none
  | .moment m => .ok (some m)
  | .float x => (Epoch.ofMillis x).map some |>.mapError Epoch.EpochError.failure
  | .bool b => (Epoch.ofMillisInt (Value.ofFlag b)).map some |>.mapError Epoch.EpochError.failure
  | .int i => (Epoch.ofMillisInt i).map some |>.mapError Epoch.EpochError.failure
  | v => (Iso.read v.shown).map some |>.mapError (Iso.ReadError.failure v.shown)

namespace Event

def hourMicros : Int := 3600 * 1000000

def numberedId (number : Nat) : Text :=
  "evt-".toText ++ Number.natText number

def textOr (default : Text) : Option Value → Text
  | some v => if v.isTruthy then v.shown else default
  | none => default

def takeId (number : Nat) (data : Entries) : Text × Nat :=
  match data.get? "id" with
  | some v => if v.isTruthy then (v.shown, number) else (numberedId number, number + 1)
  | none => (numberedId number, number + 1)

/-- Does the event last all day? The first of the two spellings of the key counts. -/
def takeAllDay (data : Entries) : Bool :=
  match data.get? "allDay" with
  | some v => v.isTruthy
  | none =>
    match data.get? "all_day" with
    | some v => v.isTruthy
    | none => false

def takeMoment (key : String) (data : Entries) : Except Failure (Option Moment) :=
  ((data.get? key).getD .null).toMoment?

def hourAfter (start : Moment) : Except Failure Moment :=
  match start.shift hourMicros with
  | some m => .ok m
  | none => .error RangeError.date.failure

def buildWith (now : Moment) (id : Text) (data : Entries) : Except Failure Event := do
  let title := textOr "Untitled".toText (data.get? "title")
  let start := (← takeMoment "start" data).getD now
  let stop ← match ← takeMoment "end" data with
    | some m => pure m
    | none => hourAfter start
  let event : Event :=
    { id, title, start, stop, allDay := takeAllDay data
      description := textOr [] (data.get? "description") }
  event.validate
  return event

/-- The event that entries describe, and the next number for ids. The number is used up even if the
entries describe no event. -/
def build (now : Moment) (number : Nat) (data : Entries) : Except Failure Event × Nat :=
  let (id, next) := takeId number data
  (buildWith now id data, next)

def ofData (now : Moment) (number : Nat) (data : Value) (named : Entries) :
    Except Failure Event × Nat :=
  match Entries.ofOptionalData data with
  | .ok entries => build now number (entries.merge named)
  | .error f => (.error f, number)

def entries (e : Event) : Entries :=
  [(.text "id".toText, .text e.id), (.text "title".toText, .text e.title),
    (.text "start".toText, .moment e.start), (.text "end".toText, .moment e.stop),
    (.text "allDay".toText, .bool e.allDay), (.text "description".toText, .text e.description)]

end Event

end GuardedConsole
