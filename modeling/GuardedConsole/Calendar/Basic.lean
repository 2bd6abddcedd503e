import GuardedConsole.Calendar.Arity
import GuardedConsole.Calendar.Store
import GuardedConsole.Calendar.UndoHistory

/-!
# The calendar

A calendar has a store of events, a history of the store, a view, a time zone and a current date.
Its methods, those of its store and those of its history are called by name with values as
arguments. A method that changes events keeps a snapshot first, also if the change fails.
-/

namespace GuardedConsole

open Time

/-- A calendar. -/
structure Calendar where
  store : EventStore := {}
  history : UndoHistory (Table Event) := {}
  view : Value := .text "month".toText
  timezone : Value := .text "UTC".toText
  currentDate : Option Moment

namespace Calendar

def views : List Text :=
  ["month", "week", "day", "list"].map String.toText

abbrev Change := Except Failure Value × Calendar

def ofMoment? : Option Moment → Value
  | some m => .moment m
  | none => .null

def ofEvent? : Option Event → Value
  | some e => .event e
  | none => .null

def ofEvents (events : List Event) : Value :=
  .list (events.map Value.event)

def ofStats (s : EventStore.Stats) : Value :=
  .dict [(.text "total".toText, .int s.total), (.text "allDay".toText, .int s.allDay),
    (.text "first".toText, ofMoment? s.first), (.text "last".toText, ofMoment? s.last)]

def answer {α : Type} (c : Calendar) (toValue : α → Value) (result : Except Failure α) : Change :=
  (result.map toValue, c)

def change {α : Type} (c : Calendar) (toValue : α → Value)
    (result : Except Failure α × EventStore) : Change :=
  (result.1.map toValue, { c with store := result.2 })

def snapshot (c : Calendar) : Calendar :=
  { c with history := c.history.snapshot c.store.events }

/-! ### Navigation -/

def daysMicros (days : Nat) : Int :=
  days * dayMicros

def stepMicros (view : Value) : Int :=
  if view.sameKey (.text "day".toText) then daysMicros 1
  else if view.sameKey (.text "week".toText) then daysMicros 7
  else daysMicros 30

def noDate (operator : String) : Failure :=
  .fault .wrongType
    ("unsupported operand type(s) for ".toText ++ operator.toText ++
      ": 'NoneType' and 'datetime.timedelta'".toText)

def navigate (c : Calendar) (back : Bool) : Change :=
  match c.currentDate with
  | none => (.error (noDate (if back then "-=" else "+=")), c)
  | some m =>
    match m.shift (if back then -stepMicros c.view else stepMicros c.view) with
    | some m => (.ok (.moment m), { c with currentDate := some m })
    | none => (.error RangeError.date.failure, c)

def unknownView (view : Value) : Failure :=
  .fault .badValue
    ("Unknown view ".toText ++ view.spelled ++ "; expected one of ".toText ++
      Text.joinWith ", ".toText views)

/-! ### Methods -/

/-- The methods of a calendar. -/
inductive Method where
  | getEvents | addEvent | updateEvent | removeEvent
  | getEventById | getEventsForDate | getEventsInRange | detectConflicts
  | setView | getView | next | previous | today
  | getCurrentDate | setCurrentDate | getTimezone | setTimezone
deriving DecidableEq

def Method.form : Method → String × List String
  | getEvents => ("get_events", [])
  | addEvent => ("add_event", ["data"])
  | updateEvent => ("update_event", ["event_id", "changes"])
  | removeEvent => ("remove_event", ["event_id"])
  | getEventById => ("get_event_by_id", ["event_id"])
  | getEventsForDate => ("get_events_for_date", ["day"])
  | getEventsInRange => ("get_events_in_range", ["start", "end"])
  | detectConflicts => ("detect_conflicts", [])
  | setView => ("set_view", ["view"])
  | getView => ("get_view", [])
  | next => ("next", [])
  | previous => ("previous", [])
  | today => ("today", [])
  | getCurrentDate => ("get_current_date", [])
  | setCurrentDate => ("set_current_date", ["when"])
  | getTimezone => ("get_timezone", [])
  | setTimezone => ("set_timezone", ["tz"])

/-- The methods of the event store. -/
inductive StoreMethod where
  | add | update | remove | get | getAll | clear
  | getByDate | getByDateRange | getStats | hasConflicts | getConflicts
deriving DecidableEq

def StoreMethod.form : StoreMethod → String × List String
  | add => ("add", ["event"])
  | update => ("update", ["event_id", "changes"])
  | remove => ("remove", ["event_id"])
  | get => ("get", ["event_id"])
  | getAll => ("get_all", [])
  | clear => ("clear", [])
  | getByDate => ("get_by_date", ["day"])
  | getByDateRange => ("get_by_date_range", ["start", "end"])
  | getStats => ("get_stats", [])
  | hasConflicts => ("has_conflicts", ["event"])
  | getConflicts => ("get_conflicts", ["event"])

/-- The methods of the history. -/
inductive HistoryMethod where
  | snapshot | undo | redo | canUndo | canRedo | getUndoCount | getRedoCount
deriving DecidableEq

def HistoryMethod.form : HistoryMethod → String × List String
  | snapshot => ("snapshot", [])
  | undo => ("undo", [])
  | redo => ("redo", [])
  | canUndo => ("can_undo", [])
  | canRedo => ("can_redo", [])
  | getUndoCount => ("get_undo_count", [])
  | getRedoCount => ("get_redo_count", [])

def methods : List Method :=
  [.getEvents, .addEvent, .updateEvent, .removeEvent, .getEventById, .getEventsForDate,
    .getEventsInRange, .detectConflicts, .setView, .getView, .next, .previous, .today,
    .getCurrentDate, .setCurrentDate, .getTimezone, .setTimezone]

def storeMethods : List StoreMethod :=
  [.add, .update, .remove, .get, .getAll, .clear, .getByDate, .getByDateRange, .getStats,
    .hasConflicts, .getConflicts]

def historyMethods : List HistoryMethod :=
  [.snapshot, .undo, .redo, .canUndo, .canRedo, .getUndoCount, .getRedoCount]

def method? (name : Text) : Option Method :=
  methods.find? fun m => m.form.1.toText == name

def storeMethod? (name : Text) : Option StoreMethod :=
  storeMethods.find? fun m => m.form.1.toText == name

def historyMethod? (name : Text) : Option HistoryMethod :=
  historyMethods.find? fun m => m.form.1.toText == name

def argument (arguments : List Value) (i : Nat) : Value :=
  arguments[i]?.getD .null

def run (c : Calendar) (now : Moment) (m : Method) (arguments : List Value) : Change :=
  let first := argument arguments 0
  let second := argument arguments 1
  match m with
  | .getEvents => c.answer ofEvents c.store.all
  | .addEvent => let c := c.snapshot; c.change Value.event (c.store.add now first)
  | .updateEvent => let c := c.snapshot; c.change Value.event (c.store.update now first second)
  | .removeEvent => let c := c.snapshot; c.change Value.bool (c.store.remove first)
  | .getEventById => c.answer ofEvent? (c.store.get first)
  | .getEventsForDate => c.answer ofEvents (c.store.byDate first)
  | .getEventsInRange => c.answer ofEvents (c.store.byRange first second)
  | .detectConflicts =>
    c.answer (fun pairs => .list (pairs.map fun (a, b) => .list [.event a, .event b]))
      (c.store.all >>= EventStore.overlappingPairs)
  | .setView =>
    if views.any fun view => first.sameKey (.text view) then (.ok first, { c with view := first })
    else (.error (unknownView first), c)
  | .getView => (.ok c.view, c)
  | .next => c.navigate false
  | .previous => c.navigate true
  | .today => (.ok (.moment now), { c with currentDate := some now })
  | .getCurrentDate => (.ok (ofMoment? c.currentDate), c)
  | .setCurrentDate =>
    match first.toMoment? with
    | .ok date => (.ok (ofMoment? date), { c with currentDate := date })
    | .error f => (.error f, c)
  | .getTimezone => (.ok c.timezone, c)
  | .setTimezone => (.ok (.text first.shown), { c with timezone := .text first.shown })

def runStore (c : Calendar) (now : Moment) (m : StoreMethod) (arguments : List Value) : Change :=
  let first := argument arguments 0
  let second := argument arguments 1
  match m with
  | .add => c.change Value.event (c.store.add now first)
  | .update => c.change Value.event (c.store.update now first second)
  | .remove => c.change Value.bool (c.store.remove first)
  | .get => c.answer ofEvent? (c.store.get first)
  | .getAll => c.answer ofEvents c.store.all
  | .clear => (.ok .null, { c with store := c.store.clear })
  | .getByDate => c.answer ofEvents (c.store.byDate first)
  | .getByDateRange => c.answer ofEvents (c.store.byRange first second)
  | .getStats => c.answer ofStats c.store.stats
  | .hasConflicts => c.answer (fun events => .bool !events.isEmpty) (c.store.conflicts first)
  | .getConflicts => c.answer ofEvents (c.store.conflicts first)

def HistoryMethod.run {σ : Type} (m : HistoryMethod) (h : UndoHistory σ) (current : σ) :
    Value × σ × UndoHistory σ :=
  match m with
  | .snapshot => (.null, current, h.snapshot current)
  | .undo =>
    match h.undo current with
    | some (state, h) => (.bool true, state, h)
    | none => (.bool false, current, h)
  | .redo =>
    match h.redo current with
    | some (state, h) => (.bool true, state, h)
    | none => (.bool false, current, h)
  | .canUndo => (.bool !h.past.isEmpty, current, h)
  | .canRedo => (.bool !h.future.isEmpty, current, h)
  | .getUndoCount => (.int h.past.length, current, h)
  | .getRedoCount => (.int h.future.length, current, h)

def runHistory (c : Calendar) (m : HistoryMethod) : Change :=
  let (v, events, history) := m.run c.history c.store.events
  (.ok v, { c with store := { c.store with events := events }, history := history })

def checked (c : Calendar) (owner : String) (form : String × List String) (arguments : List Value)
    (change : Change) : Change :=
  match (Signature.ofMethod owner form).check (arguments.length + 1) with
  | .ok () => change
  | .error f => (.error f, c)

def call (c : Calendar) (now : Moment) (m : Method) (arguments : List Value) : Change :=
  c.checked "Calendar" m.form arguments (c.run now m arguments)

def callStore (c : Calendar) (now : Moment) (m : StoreMethod) (arguments : List Value) : Change :=
  c.checked "EventStore" m.form arguments (c.runStore now m arguments)

def callHistory (c : Calendar) (m : HistoryMethod) (arguments : List Value) : Change :=
  c.checked "StateHistory" m.form arguments (c.runHistory m)

end Calendar

end GuardedConsole
