import GuardedConsole.Calendar.EventData

/-!
# The event store

Events under their ids, in the order in which the ids came. Listings are ordered by start, events
with equal starts in store order; they fail if some starts have an offset and some have none.
-/

namespace GuardedConsole

open Time

/-- Events under their ids, and the number for the next id that is made up. -/
structure EventStore where
  events : Table Event := []
  nextNumber : Nat := 1

namespace EventStore

def insertByStart (e : Event) : List Event → Except Failure (List Event)
  | [] => .ok [e]
  | f :: rest =>
    match f.start.isBefore e.start with
    | .error failure => .error failure
    | .ok false => .ok (e :: f :: rest)
    | .ok true =>
      match insertByStart e rest with
      | .error failure => .error failure
      | .ok rest => .ok (f :: rest)

def sortByStart : List Event → Except Failure (List Event)
  | [] => .ok []
  | e :: rest =>
    match sortByStart rest with
    | .error failure => .error failure
    | .ok rest => insertByStart e rest

def all (s : EventStore) : Except Failure (List Event) :=
  sortByStart s.events.values

/-- The event under a key. Only texts are ids. -/
def get (s : EventStore) (key : Value) : Except Failure (Option Event) :=
  match key.checkHashable with
  | .error f => .error f
  | .ok () =>
    match key with
    | .text id => .ok (s.events.find? id)
    | _ => .ok none

def put (s : EventStore) (e : Event) : EventStore :=
  { s with events := s.events.put e.id e }

def make (s : EventStore) (now : Moment) (data : Value) (named : Entries) :
    Except Failure Event × EventStore :=
  let (result, next) := Event.ofData now s.nextNumber data named
  (result, { s with nextNumber := next })

def add (s : EventStore) (now : Moment) (v : Value) : Except Failure Event × EventStore :=
  match v with
  | .event e => (.ok e, s.put e)
  | data =>
    match s.make now data [] with
    | (.ok e, s) => (.ok e, s.put e)
    | (.error f, s) => (.error f, s)

def noEvent (key : Value) : Failure :=
  .ofKind .missingKey (some ("No event with id ".toText ++ key.spelled))

/-- Replaces an event by one whose description is changed. The id stays. -/
def update (s : EventStore) (now : Moment) (key changes : Value) :
    Except Failure Event × EventStore :=
  match s.get key with
  | .error f => (.error f, s)
  | .ok none => (.error (noEvent key), s)
  | .ok (some e) =>
    match Entries.ofOptionalData changes with
    | .error f => (.error f, s)
    | .ok changed =>
      let data := (e.entries.merge changed).put (.text "id".toText) (.text e.id)
      match Event.build now s.nextNumber data with
      | (.ok e', next) => (.ok e', { s with nextNumber := next, events := s.events.put e.id e' })
      | (.error f, next) => (.error f, { s with nextNumber := next })

/-- Deletes the event under a key. In an empty store nothing is looked up. -/
def remove (s : EventStore) (key : Value) : Except Failure Bool × EventStore :=
  if s.events.isEmpty then (.ok false, s)
  else
    match key.checkHashable with
    | .error f => (.error f, s)
    | .ok () =>
      match key with
      | .text id => (.ok (s.events.find? id).isSome, { s with events := s.events.erase id })
      | _ => (.ok false, s)

def clear (s : EventStore) : EventStore :=
  { s with events := [] }

def select (test : Event → Except Failure Bool) : List Event → Except Failure (List Event)
  | [] => .ok []
  | e :: rest =>
    match test e with
    | .error f => .error f
    | .ok keep =>
      match select test rest with
      | .error f => .error f
      | .ok rest => .ok (if keep then e :: rest else rest)

def byDate (s : EventStore) (day : Value) : Except Failure (List Event) := do
  match ← day.toMoment? with
  | none => .error (Value.lacks .null "date")
  | some m =>
    let events ← s.all
    return events.filter fun e => e.start.dayNumber ≤ m.dayNumber && m.dayNumber ≤ e.stop.dayNumber

def noOrder (left right : String) : Failure :=
  .fault .wrongType
    ("'<' not supported between instances of ".toText ++ Text.named left.toText ++
      " and ".toText ++ Text.named right.toText)

def startsBefore (e : Event) : Option Moment → Except Failure Bool
  | some m => e.start.isBefore m
  | none => .error (noOrder "datetime.datetime" "NoneType")

def endsAfter (e : Event) : Option Moment → Except Failure Bool
  | some m => m.isBefore e.stop
  | none => .error (noOrder "NoneType" "datetime.datetime")

def byRange (s : EventStore) (start stop : Value) : Except Failure (List Event) := do
  let start ← start.toMoment?
  let stop ← stop.toMoment?
  select (fun e => do
    if ← startsBefore e stop then endsAfter e start else return false) (← s.all)

def conflicts (s : EventStore) (v : Value) : Except Failure (List Event) := do
  select (fun e =>
    match v with
    | .event other => if e.id = other.id then .ok false else e.overlaps other
    | other => .error (other.lacks "id")) (← s.all)

/-- How many events there are, how many of them last all day, the first start and the end of the
last event. -/
structure Stats where
  total : Nat
  allDay : Nat
  first : Option Moment
  last : Option Moment
deriving DecidableEq

def stats (s : EventStore) : Except Failure Stats := do
  let events ← s.all
  return {
    total := events.length
    allDay := events.countP Event.allDay
    first := events.head?.map Event.start
    last := events.getLast?.map Event.stop }

def overlappingPairs : List Event → Except Failure (List (Event × Event))
  | [] => .ok []
  | e :: rest => do
    let partners ← select e.overlaps rest
    return partners.map (fun f => (e, f)) ++ (← overlappingPairs rest)

end EventStore

end GuardedConsole
