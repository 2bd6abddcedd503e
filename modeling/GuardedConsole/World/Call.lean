import GuardedConsole.Outcome
import GuardedConsole.World.Basic

/-!
# Calls

`World.call` calls a value with arguments. A call has an answer, which may be that it never ends,
and it may change the world: functions and classes of a context leave a record of the call, and
methods change the calendar.
-/

namespace GuardedConsole

open Time

/-- What comes of a call. -/
abbrev Answer := Outcome Value

def Behaviour.answer (arguments : List Value) : Behaviour → Answer
  | .count => .returned (.int arguments.length)
  | .arguments => .returned (.list arguments)
  | .echo => .returned (arguments.headD .null)
  | .fails f => .failed f
  | .never => .unfinished

namespace World

def answered (w : World) (result : Except Failure Value) : Answer × World :=
  (.ofExcept result, w)

def changed (w : World) (change : Calendar.Change) : Answer × World :=
  (.ofExcept change.1, { w with calendar := change.2 })

/-! ### Methods of texts and moments -/

/-- Calls a method of a text. Both change the case of its letters and take no arguments. -/
def callText (t name : Text) (arguments : List Value) : Except Failure Value :=
  if arguments.isEmpty then .ok (.text (if name = "upper".toText then t.upper else t.lower))
  else
    .error (.fault .wrongType
      ("str.".toText ++ name ++ "() takes no arguments (".toText ++
        Number.natText arguments.length ++ " given)".toText))

/-- The failure of an argument that has the wrong type. Nothing is shown by its own name. -/
def wrongArgument (place : Nat) (wanted : String) (v : Value) : Failure :=
  .fault .wrongType
    ("isoformat() argument ".toText ++ Number.natText place ++ " must be ".toText ++
      wanted.toText ++ ", not ".toText ++
      match v with
      | .null => "None".toText
      | v => v.typeName)

def separatorOf : Value → Except Failure CodePoint
  | .text [c] => .ok c
  | v => .error (wrongArgument 1 "a unicode character" v)

def precisionOf : Value → Except Failure Iso.Precision
  | .text name =>
    if name.contains '\x00' then .error (.fault .badValue "embedded null character".toText)
    else
      match Iso.Precision.ofName? name with
      | some precision => .ok precision
      | none => .error (.fault .badValue "Unknown timespec value".toText)
  | v => .error (wrongArgument 2 "str" v)

def callIso (m : Moment) : List Value → Except Failure Value
  | [] => .ok (.text (Iso.write m))
  | [s] => (separatorOf s).map fun separator => .text (Iso.writeWith separator .full m)
  | [s, p] => do
    let separator ← separatorOf s
    let precision ← precisionOf p
    return .text (Iso.writeWith separator precision m)
  | arguments =>
    .error (.fault .wrongType
      ("isoformat() takes at most 2 arguments (".toText ++ Number.natText arguments.length ++
        " given)".toText))

/-! ### Other callables -/

def eventSignature : Signature :=
  { function := "Event.__init__".toText
    parameters := ["self".toText, "data".toText]
    required := 1 }

def construct (w : World) (arguments : List Value) : Answer × World :=
  match eventSignature.check (arguments.length + 1) with
  | .error f => (.failed f, w)
  | .ok () =>
    let (result, store) := w.calendar.store.make w.now (arguments.headD .null) []
    (.ofExcept (result.map .event), { w with calendar := { w.calendar with store := store } })

def calendarCommands : List Calendar.Method :=
  [.getEvents, .addEvent, .updateEvent, .removeEvent, .getEventsForDate, .getEventsInRange,
    .setView, .getView, .next, .previous, .today, .getCurrentDate, .setCurrentDate, .getTimezone,
    .setTimezone, .getEventById, .detectConflicts]

def storeCommands : List Calendar.StoreMethod :=
  [.add, .update, .remove, .get, .getAll, .clear, .getByDate, .getByDateRange, .getStats,
    .hasConflicts, .getConflicts]

def historyCommands : List Calendar.HistoryMethod :=
  [.undo, .redo, .canUndo, .canRedo, .getUndoCount, .getRedoCount]

def commandNames : Table (List Text) :=
  [("calendar".toText, calendarCommands.map fun m => m.form.1.toText),
    ("event_store".toText, storeCommands.map fun m => m.form.1.toText),
    ("state".toText, historyCommands.map fun m => m.form.1.toText)]

def helpLines (scope : Text) (names : List Text) : List Text :=
  let owner := if scope = "calendar".toText then scope else "calendar.".toText ++ scope
  names.map fun name => "  ".toText ++ owner ++ .char '.' :: name ++ "(...)".toText

def helpText : Text :=
  Text.joinWith [.char '\n']
    ("Available commands:".toText ::
      commandNames.flatMap (fun (scope, names) => helpLines scope names) ++
      ["  new Event(\x7b...\x7d)".toText])

def helpSignature : Signature :=
  { function := "build_context.<locals>.help".toText, parameters := [] }

def callMethod (w : World) (owner : Value) (name : Text) (arguments : List Value) :
    Answer × World :=
  match owner with
  | .text t => w.answered (callText t name arguments)
  | .moment m => w.answered (callIso m arguments)
  | .presenter shown =>
    match (Signature.ofMethod "HasToDict" ("to_dict", [])).check (arguments.length + 1) with
    | .ok () => (.returned shown, w)
    | .error f => (.failed f, w)
  | .event e =>
    match Event.Method.ofName? name with
    | some m => w.answered (m.call e arguments)
    | none => (.failed owner.notCallable, w)
  | .eventClass =>
    match Event.Method.ofName? name with
    | some m => w.answered (m.callUnbound arguments)
    | none => (.failed owner.notCallable, w)
  | .calendar =>
    match Calendar.method? name with
    | some m => w.changed (w.calendar.call w.now m arguments)
    | none => (.failed owner.notCallable, w)
  | .eventStore =>
    match Calendar.storeMethod? name with
    | some m => w.changed (w.calendar.callStore w.now m arguments)
    | none => (.failed owner.notCallable, w)
  | .undoHistory =>
    match Calendar.historyMethod? name with
    | some m => w.changed (w.calendar.callHistory m arguments)
    | none => (.failed owner.notCallable, w)
  | owner => (.failed owner.notCallable, w)

def call (w : World) (target : Value) (arguments : List Value) : Answer × World :=
  match target with
  | .function name behaviour => (behaviour.answer arguments, w.record name arguments)
  | .constant name result => (.returned result, w.record name arguments)
  | .callable _ => (.returned .null, w)
  | .plainClass name =>
    (.returned (.object name [("args".toText, .tuple arguments)]),
      w.record ("new ".toText ++ name) arguments)
  | .eventClass => w.construct arguments
  | .help =>
    w.answered ((helpSignature.check arguments.length).map fun () => .text helpText)
  | .method owner name => w.callMethod owner name arguments
  | other => (.failed (other.resolve w.cells).notCallable, w)

end World

end GuardedConsole
