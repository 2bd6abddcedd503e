import GuardedConsole.Time.Moment

/-!
# Events

An event has an id, a title, a start and an end, and may last all day. `Event.overlaps` compares
the half-open spans of two events, and `Event.validate` refuses an event that ends before it starts.
-/

namespace GuardedConsole

open Time

/-- An event of a calendar. -/
structure Event where
  id : Text
  title : Text
  start : Moment
  stop : Moment
  allDay : Bool
  description : Text
deriving DecidableEq

namespace Event

def endsEarly (title : Text) : Failure :=
  .fault .badValue ("Event ".toText ++ title.named ++ " ends before it starts".toText)

def validate (e : Event) : Except Failure Unit :=
  match e.stop.isBefore e.start with
  | .error f => .error f
  | .ok true => .error (endsEarly e.title)
  | .ok false => .ok ()

def overlaps (a b : Event) : Except Failure Bool :=
  match a.start.isBefore b.stop with
  | .error f => .error f
  | .ok false => .ok false
  | .ok true => b.start.isBefore a.stop

end Event

end GuardedConsole
