import GuardedConsole.Encoding
import GuardedConsole.Named

/-!
# Reports of failures

A reporter keeps a record of each of the latest errors, up to a limit, and hands every new record to
its listeners in the order of their registration. A listener that breaks is complained about, and
changes nothing else as long as the complaint can be printed. `Failure.userMessage` is what the person
who typed a command is told about its failure.
-/

namespace GuardedConsole

/-! ### Messages for people -/

def FaultKind.advice? : FaultKind → Option String
  | .securityViolation => some "This operation is not allowed for security reasons."
  | .invalidFormat => some "Invalid command syntax. Check parentheses and quotes."
  | .notFound => some "Command or object not found."
  | .forbidden => some "Security: not on the allow-list."
  | .notCallable => some "Type error. That is not something you can call."
  | .undecodable => some "Could not read a value. Check the literal you typed."
  | .timedOut => some "Operation timed out. Try a simpler command."
  | .wrongType => some "Type error. Check that you're using the correct data types."
  | .badValue | .badEncoding | .unencodable => some "Invalid input. Check the required parameters."
  | _ => none

/-- Advice that goes with the kind of the cause, and the wording of the cause itself. -/
def Failure.userMessage (f : Failure) : Text :=
  match f.unwrap.kind.advice? with
  | some advice => advice.toText ++ " (".toText ++ f.unwrap.message ++ [.char ')']
  | none =>
    if f.unwrap.message.isEmpty then "An unexpected error occurred".toText else f.unwrap.message

/-! ### Records -/

/-- What a reporter gets to know of an error: its kind, its wording, and the kind of its cause if it is
a failed execution. The kinds may be any. -/
structure Report (κ : Type := FaultKind) where
  kind : κ
  message : Text
  cause : Option κ := none

def Report.causeKind {κ : Type} (e : Report κ) : κ :=
  e.cause.getD e.kind

def Failure.report (f : Failure) : Report where
  kind := f.kind
  message := f.message
  cause := match f with
    | .execution cause => some cause.kind
    | _ => none

instance : Coe Failure Report := ⟨Failure.report⟩

/-- What is kept of an error: the kind of its cause, its wording, and what was going on. -/
structure Record (κ : Type := FaultKind) where
  kind : κ
  message : Text
  context : Table Text
deriving DecidableEq

def Record.ofReport {κ : Type} (e : Report κ) (context : Table Text) : Record κ :=
  { kind := e.causeKind, message := e.message, context }

/-! ### Listeners -/

/-- A listener is known by its name. One that breaks does so with a message. -/
structure Listener where
  name : Text
  breaks : Option Text := none
deriving DecidableEq

/-- What comes of handing a record to a listener. -/
inductive Delivery where
  | heard (listener message : Text)
  | broke (complaint : Text)
deriving DecidableEq

def Listener.receive {κ : Type} (l : Listener) (entry : Record κ) : Delivery :=
  match l.breaks with
  | none => .heard l.name entry.message
  | some message => .broke ("Error in error listener: ".toText ++ message)

/-- Prints the complaint about a listener that broke. -/
def Delivery.print : Delivery → Except Failure Unit
  | .heard _ _ => .ok ()
  | .broke complaint => complaint.checkEncodable

/-- Hands a record to listeners one after another, as long as complaints can be printed. -/
def deliver {κ : Type} (entry : Record κ) (listeners : List Listener) :
    Except Failure (List Delivery) :=
  listeners.mapM fun l => do
    (l.receive entry).print
    return l.receive entry

/-! ### Reporters -/

/-- The latest records, oldest first, and the listeners in order of registration. Without a limit
all records are kept. -/
structure Reporter (κ : Type := FaultKind) where
  limit : Option Nat := some 100
  records : List (Record κ) := []
  listeners : List Listener := []

namespace Reporter

variable {κ : Type}

def negativeLimit : Failure :=
  .fault .badValue "maxlen must be non-negative".toText

def ofLimit? : Option Int → Except Failure (Reporter κ)
  | none => .ok { limit := none }
  | some n => if n < 0 then .error negativeLimit else .ok { limit := some n.toNat }

def kept (limit : Option Nat) (records : List (Record κ)) : List (Record κ) :=
  match limit with
  | none => records
  | some n => records.drop (records.length - n)

def add (r : Reporter κ) (entry : Record κ) : Reporter κ :=
  { r with records := kept r.limit (r.records ++ [entry]) }

/-- Records an error and tells the listeners. The record is kept whatever they do. -/
def record (r : Reporter κ) (e : Report κ) (context : Table Text) :
    Except Failure (Record κ × List Delivery) × Reporter κ :=
  let entry := Record.ofReport e context
  ((deliver entry r.listeners).map fun deliveries => (entry, deliveries), r.add entry)

def passedTwice (name : Text) : Failure :=
  .fault .wrongType
    ("ErrorReporter.record() got multiple values for argument ".toText ++ name.named)

def takenName? (context : Table Text) : Option Text :=
  context.names.find? fun name => name == "self".toText || name == "error".toText

def recordNamed (r : Reporter κ) (e : Report κ) (context : Table Text) :
    Except Failure (Record κ × List Delivery) × Reporter κ :=
  match takenName? context with
  | some name => (.error (passedTwice name), r)
  | none => r.record e context

def listen (r : Reporter κ) (l : Listener) : Reporter κ :=
  { r with listeners := r.listeners ++ [l] }

/-- Takes back the first registration of a listener with the name, if there is one. -/
def unlisten (r : Reporter κ) (name : Text) : Reporter κ :=
  { r with listeners := r.listeners.eraseP fun l => l.name == name }

def clear (r : Reporter κ) : Reporter κ :=
  { r with records := [] }

/-- The kinds of the records in the order in which they first occur, and how often each occurs. -/
def stats [DecidableEq κ] (r : Reporter κ) : List (κ × Nat) :=
  let kinds := r.records.map Record.kind
  kinds.eraseDups.map fun kind => (kind, kinds.count kind)

end Reporter

end GuardedConsole
