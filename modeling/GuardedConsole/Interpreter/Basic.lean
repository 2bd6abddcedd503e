import GuardedConsole.Command.Grammar
import GuardedConsole.Interpreter.Host
import GuardedConsole.Screening.DenyList

/-!
# The interpreter

An interpreter has a context of named values, the names of the classes that may be constructed, and
allow-lists of method names for some scopes. `Interpreter.plan` decides from a text what is to be
done: give a value, or call one; it calls nothing. `Interpreter.executeOn` carries the plan out on
the objects of a host, so that a command makes at most one call; `Interpreter.execute` does so for the
host that its states belong to. `Interpreter.forCalendar` is the interpreter for the calendar.
-/

namespace GuardedConsole

open Time

/-- Named values, classes that may be constructed, and allow-lists. A scope without an allow-list
allows every method. -/
structure Interpreter where
  context : Table Value
  constructors : List Text := []
  allowed : Table (List Text) := []

/-- What a command asks for. -/
inductive Action where
  | give (v : Value)
  | invoke (target : Value) (arguments : List Value)

def Outcome.ofExecution {α : Type} : Outcome α → Outcome α
  | .failed f => .failed (.execution f)
  | other => other

namespace Interpreter

variable {σ : Type}

def isAllowed (i : Interpreter) (scope name : Text) : Bool :=
  match i.allowed.find? scope with
  | some names => names.contains name
  | none => true

def bound? (i : Interpreter) (name : Text) : Option Value :=
  match i.context.find? name with
  | some .null => none
  | other => other

def isPrivate (name : Text) : Bool :=
  name.head? == some (.char '_')

/-- Follows the names of members from a value. `owner` is the name that the value was found under.
-/
def reach (h : Host σ) (s : σ) (owner : Text) (v : Value) : List Text → Except Failure Value
  | [] => .ok v
  | name :: names =>
    if isPrivate name then .error (.refused (.privateMember name))
    else
      match h.member? s name v with
      | .error f => .error f
      | .ok none => .error (.refused (.noMember name owner))
      | .ok (some member) => reach h s name member names

def follow (i : Interpreter) (h : Host σ) (s : σ) (path : Path) : Except Failure Value :=
  match i.bound? path.root with
  | none => .error (.refused (.noObject path.root))
  | some v => reach h s path.root v path.members

/-- What a call asks for. Only an allowed function that is no class is called. -/
def planCall (i : Interpreter) (h : Host σ) (s : σ) (path : Path) (arguments : List Value) :
    Except Failure Action :=
  match i.follow h s path with
  | .error f => .error f
  | .ok target =>
    if !h.isCallable s target then .error (.refused (.notFunction path.name))
    else if h.isClass s target then .error (.refused (.needsNew path.name))
    else if !i.isAllowed path.scope path.name then .error (.refused (.methodNotAllowed path.name))
    else .ok (.invoke target arguments)

def planConstruction (i : Interpreter) (h : Host σ) (s : σ) (name : Text)
    (arguments : List Value) : Except Failure Action :=
  if !i.constructors.contains name then .error (.refused (.constructorNotAllowed name))
  else
    match i.bound? name with
    | none => .error (.refused (.noClass name))
    | some target =>
      if !h.isCallable s target then .error (.refused (.notConstructor name))
      else .ok (.invoke target arguments)

def planCommand (i : Interpreter) (h : Host σ) (s : σ) : Command → Except Failure Action
  | .property path => (i.follow h s path).map .give
  | .call path arguments => i.planCall h s path arguments
  | .construct name arguments => i.planConstruction h s name arguments

def parse (now : Moment) (t : Text) : Except Failure (Option Command) :=
  match Screening.validate (Screening.normalize t) with
  | .error reason => .error (.refused reason)
  | .ok () => Command.parse now (Screening.normalize t)

def plan (i : Interpreter) (h : Host σ) (s : σ) (t : Text) : Except Failure Action :=
  match parse (h.now s) t with
  | .error f => .error f
  | .ok none => .error (.refused .unrecognized)
  | .ok (some command) => i.planCommand h s command

def perform (h : Host σ) (s : σ) : Action → Answer × σ
  | .give v => (.returned v, s)
  | .invoke target arguments =>
    let (answer, s) := h.call s target arguments
    (answer.ofExecution, s)

/-- Executes a text on the objects of a host. Every failure is the cause of a failed execution. -/
def executeOn (i : Interpreter) (h : Host σ) (s : σ) (t : Text) : Answer × σ :=
  match i.plan h s t with
  | .error f => (.failed (.execution f), s)
  | .ok action => perform h s action

def execute [h : Host σ] (i : Interpreter) (s : σ) (t : Text) : Answer × σ :=
  i.executeOn h s t

/-- The text of a command that arrives as a value. Only a text can be trimmed. -/
def commandText : Value → Except Failure Text
  | .text t => .ok t
  | v => .error (v.lacks "strip")

def executeValue (i : Interpreter) (w : World) (v : Value) : Answer × World :=
  match commandText v with
  | .ok t => i.execute w t
  | .error f => (.failed (.execution f), w)

/-- Its context has the calendar, the class of events and the list of commands. The methods of each
scope are allow-listed, and only events can be constructed. -/
def forCalendar : Interpreter :=
  { context := [("calendar".toText, .calendar), ("Event".toText, .eventClass),
      ("help".toText, .help)]
    constructors := ["Event".toText]
    allowed := World.commandNames ++ [("help".toText, ["help".toText])] }

end Interpreter

end GuardedConsole
