import GuardedConsole.Calendar.Basic

/-!
# Drafts of events

A workbench has a list of drafts, which can still be edited, an event store and a history of the
store. A store that holds a draft shows every later edit of it, and so do the states in the history;
an event that the store made itself is nobody's draft.
-/

namespace GuardedConsole

open Time

/-- An event of the store: one of the drafts, or one of its own. -/
inductive Slot where
  | draft (index : Nat)
  | own (e : Event)

/-- Drafts, a store that may hold some of them, and a history of the store. -/
structure Workbench where
  now : Moment
  drafts : List Event := []
  slots : Table Slot := []
  nextNumber : Nat := 1
  history : UndoHistory (Table Slot) := {}

namespace Workbench

def eventOf? (b : Workbench) : Slot → Option Event
  | .draft index => b.drafts[index]?
  | .own e => some e

def store (b : Workbench) : EventStore :=
  { events := b.slots.filterMap fun (id, slot) => (b.eventOf? slot).map fun e => (id, e)
    nextNumber := b.nextNumber }

def append (b : Workbench) (e : Event) : Workbench :=
  { b with drafts := b.drafts ++ [e] }

def passedTwice (name : Text) : Failure :=
  .fault .wrongType ("Event.__init__() got multiple values for argument ".toText ++ name.named)

def takenName? (named : Table Value) : Option Text :=
  named.names.find? fun name => name == "self".toText || name == "data".toText

def make (b : Workbench) (data : Value) (named : Table Value) : Except Failure Event × Workbench :=
  match takenName? named with
  | some name => (.error (passedTwice name), b)
  | none =>
    match b.store.make b.now data (named.map fun (name, v) => (.text name, v)) with
    | (.ok e, s) => (.ok e, { b.append e with nextNumber := s.nextNumber })
    | (.error f, s) => (.error f, { b with nextNumber := s.nextNumber })

def setEnd (b : Workbench) (index : Nat) (stop : Moment) : Workbench :=
  { b with drafts := b.drafts.modify index fun e => { e with stop := stop } }

def addDraft (b : Workbench) (index : Nat) (e : Event) : Workbench :=
  { b with slots := b.slots.put e.id (.draft index) }

/-- Calls a method of the store. What it adds or changes is an event of its own. -/
def callStore (b : Workbench) (m : Calendar.StoreMethod) (arguments : List Value) :
    Except Failure Value × Workbench :=
  let c : Calendar := { store := b.store, currentDate := none }
  let (result, c) := c.callStore b.now m arguments
  let kept := b.slots.filter fun (id, _) => (c.store.events.find? id).isSome
  let slots := match m, result with
    | .add, .ok (.event e) | .update, .ok (.event e) => Table.put e.id (.own e) kept
    | _, _ => kept
  (result, { b with slots := slots, nextNumber := c.store.nextNumber })

def callHistory (b : Workbench) (m : Calendar.HistoryMethod) : Value × Workbench :=
  let (v, slots, history) := m.run b.history b.slots
  (v, { b with slots := slots, history := history })

end Workbench

end GuardedConsole
