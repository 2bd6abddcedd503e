import GuardedConsole.Calendar.Event
import GuardedConsole.Json.Basic

/-!
# Values

What a command can name, pass and get back: plain data, events, and the objects and callables of a
context. An object that is reachable by more than one path stands as `shared` under a label; what
the label stands for is kept in a table of cells.
-/

namespace GuardedConsole

open Time Number

/-- What a function of a context does when it is called. -/
inductive Behaviour where
  | count
  | arguments
  | echo
  | fails (f : Failure)
  | never
deriving DecidableEq

/-- A value. -/
inductive Value where
  | null
  | undefined
  | bool (b : Bool)
  | int (i : Int)
  | float (x : Binary64)
  | text (t : Text)
  | moment (m : Moment)
  | date (d : Civil)
  | list (items : List Value)
  | tuple (items : List Value)
  | set (items : List Value)
  | dict (entries : List (Value × Value))
  | event (e : Event)
  | object (kind : Text) (attributes : List (Text × Value))
  | presenter (shown : Value)
  | sealed (kind shown : Text)
  | shared (label : Text)
  | function (name : Text) (behaviour : Behaviour)
  | constant (name : Text) (result : Value)
  | callable (kind : Text)
  | plainClass (name : Text)
  | eventClass
  | method (owner : Value) (name : Text)
  | calendar
  | eventStore
  | undoHistory
  | help

abbrev Cells := Table Value

/-- What tells an object from another one that looks the same. -/
inductive Identity where
  | cell (label : Text)
  | calendar
deriving DecidableEq

namespace Value

def identity? : Value → Option Identity
  | .shared label => some (.cell label)
  | .calendar => some .calendar
  | _ => none

def resolve (cells : Cells) : Value → Value
  | .shared label => (cells.find? label).getD (.shared label)
  | v => v

def isCallable : Value → Bool
  | .function _ _ | .constant _ _ | .callable _ | .plainClass _ | .eventClass | .method _ _
  | .help => true
  | _ => false

def isClass : Value → Bool
  | .plainClass _ | .eventClass => true
  | _ => false

/-- Does the value count as true where a yes or no is wanted? Empty and zero values do not. -/
def isTruthy : Value → Bool
  | .null | .undefined | .bool false => false
  | .int i => i != 0
  | .float x => !x.isZero
  | .text t => !t.isEmpty
  | .list items | .tuple items | .set items => !items.isEmpty
  | .dict entries => !entries.isEmpty
  | _ => true

def typeName : Value → Text
  | .null => "NoneType".toText
  | .undefined => "_Undefined".toText
  | .bool _ => "bool".toText
  | .int _ => "int".toText
  | .float _ => "float".toText
  | .text _ => "str".toText
  | .moment _ => "datetime.datetime".toText
  | .date _ => "datetime.date".toText
  | .list _ => "list".toText
  | .tuple _ => "tuple".toText
  | .set _ => "set".toText
  | .dict _ => "dict".toText
  | .event _ => "Event".toText
  | .object kind _ | .sealed kind _ => kind
  | .presenter _ => "HasToDict".toText
  | .shared _ => "object".toText
  | .function _ _ | .constant _ _ | .help => "function".toText
  | .callable kind => kind
  | .plainClass _ | .eventClass => "type".toText
  | .method _ _ => "method".toText
  | .calendar => "Calendar".toText
  | .eventStore => "EventStore".toText
  | .undoHistory => "StateHistory".toText

def lacks (v : Value) (member : String) : Failure :=
  .fault .missingMember
    (v.typeName.named ++ " object has no attribute ".toText ++ Text.named member.toText)

def notCallable (v : Value) : Failure :=
  .fault .wrongType (v.typeName.named ++ " object is not callable".toText)

def ofFlag (b : Bool) : Int :=
  if b then 1 else 0

def integer? : Value → Option Int
  | .bool b => some (ofFlag b)
  | .int i => some i
  | .float x => x.toInt?
  | _ => none

mutual

/-- Are two values the same key of a dictionary? Numbers are compared by value whatever their type,
moments by the instant they denote, objects not at all. -/
def sameKey : Value → Value → Bool
  | .null, .null => true
  | .undefined, .undefined => true
  | .text s, .text t => s == t
  | .moment a, .moment b => a.sameInstant b
  | .date a, .date b => a == b
  | .tuple xs, .tuple ys => sameKeys xs ys
  | .float x, .float y => x.numEq y
  | .shared a, .shared b => a == b
  | .eventClass, .eventClass => true
  | a, b =>
    match a.integer?, b.integer? with
    | some i, some j => i == j
    | _, _ => false

def sameKeys : List Value → List Value → Bool
  | [], [] => true
  | x :: xs, y :: ys => sameKey x y && sameKeys xs ys
  | _, _ => false

end

mutual

def unhashable? : Value → Option Text
  | .list _ => some "list".toText
  | .dict _ => some "dict".toText
  | .set _ => some "set".toText
  | .tuple items => unhashableIn? items
  | _ => none

def unhashableIn? : List Value → Option Text
  | [] => none
  | v :: vs =>
    match unhashable? v with
    | some name => some name
    | none => unhashableIn? vs

end

def unhashable (name : Text) : Failure :=
  .fault .wrongType ("unhashable type: ".toText ++ name.named)

def checkHashable (v : Value) : Except Failure Unit :=
  match v.unhashable? with
  | some name => .error (unhashable name)
  | none => .ok ()

mutual

def ofJson : Json → Value
  | .null => .null
  | .bool b => .bool b
  | .int i => .int i
  | .float x => .float x
  | .text t => .text t
  | .list items => .list (ofItems items)
  | .record members => .dict (ofMembers members)

def ofItems : List Json → List Value
  | [] => []
  | item :: items => ofJson item :: ofItems items

def ofMembers : List (Text × Json) → List (Value × Value)
  | [] => []
  | (name, value) :: members => (.text name, ofJson value) :: ofMembers members

end

end Value

end GuardedConsole
