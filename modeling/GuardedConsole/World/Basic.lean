import GuardedConsole.Calendar.Basic
import GuardedConsole.Calendar.EventMethod
import GuardedConsole.Text.LetterCase

/-!
# The world of commands

What commands can see and change: the current moment, the cells of shared objects, a calendar, and a
record of the calls made. `World.member?` finds a member of a value by its name.
-/

namespace GuardedConsole

open Time

/-- A name under which a call is recorded, and its arguments. -/
structure CallRecord where
  name : Text
  arguments : List Value

/-- What commands can see and change. There is room on the stack for a number of levels of values
inside values. -/
structure World where
  now : Moment
  calendar : Calendar
  cells : Cells := []
  calls : List CallRecord := []
  room : Nat := 490

namespace World

def fresh (now : Moment) : World :=
  { now, calendar := { currentDate := some now } }

def record (w : World) (name : Text) (arguments : List Value) : World :=
  { w with calls := w.calls ++ [⟨name, arguments⟩] }

def textMethods : List Text :=
  ["upper".toText, "lower".toText]

def methodIf (known : Bool) (owner : Value) (name : Text) : Option Value :=
  if known then some (.method owner name) else none

def eventFields (e : Event) : Table Value :=
  [("id".toText, .text e.id), ("title".toText, .text e.title), ("start".toText, .moment e.start),
    ("end".toText, .moment e.stop), ("all_day".toText, .bool e.allDay),
    ("description".toText, .text e.description)]

def calendarFields (c : Calendar) : Table Value :=
  [("event_store".toText, .eventStore), ("state".toText, .undoHistory), ("view".toText, c.view),
    ("timezone".toText, c.timezone), ("current_date".toText, Calendar.ofMoment? c.currentDate)]

/-- The member of a value with a name. A dictionary has its keys as members, an object its
attributes. -/
def member? (w : World) (name : Text) (v : Value) : Option Value :=
  match v.resolve w.cells with
  | .dict entries => Entries.find? (.text name) entries
  | .object _ attributes => Table.find? name attributes
  | .presenter shown => methodIf (name == "to_dict".toText) (.presenter shown) name
  | .text t => methodIf (textMethods.contains name) (.text t) name
  | .moment m =>
    if name = "year".toText then some (.int m.fields.year)
    else methodIf (name == "isoformat".toText) (.moment m) name
  | .event e =>
    ((eventFields e).find? name).or (methodIf (Event.Method.ofName? name).isSome (.event e) name)
  | .eventClass => methodIf (Event.Method.ofName? name).isSome .eventClass name
  | .calendar =>
    ((calendarFields w.calendar).find? name).or
      (methodIf (Calendar.method? name).isSome .calendar name)
  | .eventStore => methodIf (Calendar.storeMethod? name).isSome .eventStore name
  | .undoHistory => methodIf (Calendar.historyMethod? name).isSome .undoHistory name
  | _ => none

end World

end GuardedConsole
