import GuardedConsole.Calendar.Arity
import GuardedConsole.Calendar.EventData

/-!
# Methods of events

An event answers four methods. `Event.Method.run` calls one of them on an event, and
`Event.Method.runOn` on any value, as the method of the class does: what is no event lacks the
members that the method looks at, or is its own copy.
-/

namespace GuardedConsole.Event

/-- The methods of events. -/
inductive Method where
  | validate | clone | overlaps | toDict
deriving DecidableEq

namespace Method

def form : Method → String × List String
  | validate => ("validate", [])
  | clone => ("clone", [])
  | overlaps => ("overlaps", ["other"])
  | toDict => ("to_dict", [])

def all : List Method :=
  [validate, clone, overlaps, toDict]

def ofName? (name : Text) : Option Method :=
  all.find? fun m => m.form.1.toText == name

def signature (m : Method) : Signature :=
  .ofMethod "Event" m.form

def run (m : Method) (e : Event) (arguments : List Value) : Except Failure Value :=
  match m, arguments with
  | validate, _ => e.validate.map fun () => .bool true
  | clone, _ => .ok (.event e)
  | overlaps, .event other :: _ => (e.overlaps other).map .bool
  | overlaps, other :: _ => .error (other.lacks "end")
  | overlaps, [] => .ok (.bool false)
  | toDict, _ => .ok (.dict e.entries)

def runOn (m : Method) (v : Value) (arguments : List Value) : Except Failure Value :=
  match v, m with
  | .event e, m => m.run e arguments
  | v, validate => .error (v.lacks "end")
  | v, clone => .ok v
  | v, overlaps => .error (v.lacks "start")
  | v, toDict => .error (v.lacks "id")

def call (m : Method) (e : Event) (arguments : List Value) : Except Failure Value :=
  match m.signature.check (arguments.length + 1) with
  | .ok () => m.run e arguments
  | .error f => .error f

/-- Calls a method of the class, whose first argument is what it is called on. -/
def callUnbound (m : Method) (arguments : List Value) : Except Failure Value :=
  match m.signature.check arguments.length, arguments with
  | .ok (), v :: arguments => m.runOn v arguments
  | .ok (), [] => .ok .null
  | .error f, _ => .error f

end Method

end GuardedConsole.Event
