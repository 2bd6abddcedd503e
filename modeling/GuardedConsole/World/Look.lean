import GuardedConsole.Json.Basic
import GuardedConsole.Value.Display
import GuardedConsole.World.Call

/-!
# What values show

Someone who renders a value gets to see a document of it as a whole, its items, its members, or that it
presents what a method gives. `World.look` says which of these a value of the world of commands shows:
objects present what they have under `to_dict`, or else show their public attributes.
-/

namespace GuardedConsole

/-- What a value shows of itself. The text of a key may fail. -/
inductive Showing where
  | whole (document : Json)
  | items (values : List Value)
  | members (entries : List (Except Failure Text × Value))
  /-- What is called to get the value that is shown in its place. -/
  | presents (callee : Value)

def Showing.fields (fields : Table Value) : Showing :=
  .members (fields.map fun (name, v) => (.ok name, v))

namespace Value

def calledName : Value → Text
  | .function name _ | .constant name _ | .method _ name | .plainClass name => name
  | .callable kind => kind
  | .help => "help".toText
  | .eventClass => "Event".toText
  | v => v.typeName

/-- What an object has under `to_dict`. -/
def presented? (attributes : List (Text × Value)) : Option Value :=
  Table.find? "to_dict".toText attributes

end Value

namespace World

def isPublic (name : Text) : Bool :=
  name.head? != some (.char '_')

def look (w : World) (v : Value) : Showing :=
  match v.resolve w.cells with
  | .list items | .tuple items | .set items => .items items
  | .dict entries => .members (entries.map fun (key, value) => (key.keyText, value))
  | .event e => .presents (.method (.event e) "to_dict".toText)
  | .presenter shown => .presents (.method (.presenter shown) "to_dict".toText)
  | .object _ attributes =>
    match Value.presented? attributes with
    | some callee => .presents callee
    | none => .fields (attributes.filter fun (name, _) => isPublic name)
  | .sealed _ shown => .whole (.text shown)
  | .calendar => .fields (calendarFields w.calendar)
  | .eventStore | .undoHistory => .fields []
  | v => .whole (.text v.shown)

end World

end GuardedConsole
