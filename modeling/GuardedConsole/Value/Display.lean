import GuardedConsole.Number.Shortest
import GuardedConsole.Text.Quoted
import GuardedConsole.Time.Spelled
import GuardedConsole.Value.Basic

/-!
# Texts of values

`Value.spelled` writes a value so that its type can be seen: texts are quoted and moments are
spelled out. `Value.shown` writes a text as it is and a moment as ISO text, and spells everything
else. `Value.keyText` is the text of a key, which may have too many digits.
-/

namespace GuardedConsole

open Time Number

def Event.spelled (e : Event) : Text :=
  "Event(".toText ++ e.title.quoted ++ ", ".toText ++ e.start.minuteStamp ++ [.char ')']

namespace Value

def anonymous (kind : Text) : Text :=
  .char '<' :: kind ++ " object>".toText

mutual

def spelled : Value → Text
  | .null => "None".toText
  | .undefined => "undefined".toText
  | .bool true => "True".toText
  | .bool false => "False".toText
  | .int i => intText i
  | .float x => x.text
  | .text t => t.quoted
  | .moment m => m.spelled
  | .date d => d.spelled
  | .list items => .char '[' :: spelledItems items ++ [.char ']']
  | .tuple [item] => .char '(' :: spelled item ++ ",)".toText
  | .tuple items => .char '(' :: spelledItems items ++ [.char ')']
  | .set [] => "set()".toText
  | .set (item :: items) => .char '\x7b' :: spelledItems (item :: items) ++ [.char '\x7d']
  | .dict entries => .char '\x7b' :: spelledEntries entries ++ [.char '\x7d']
  | .event e => e.spelled
  | .sealed _ shown => shown
  | .plainClass name => "<class ".toText ++ Text.named ("__main__.".toText ++ name) ++ [.char '>']
  | .eventClass => "<class 'Event'>".toText
  | .function name _ | .constant name _ | .method _ name =>
    "<function ".toText ++ name ++ [.char '>']
  | .help => "<function help>".toText
  | v => anonymous v.typeName

def spelledItems : List Value → Text
  | [] => []
  | [item] => spelled item
  | item :: next :: items => spelled item ++ ", ".toText ++ spelledItems (next :: items)

def spelledEntries : List (Value × Value) → Text
  | [] => []
  | [(key, value)] => spelled key ++ ": ".toText ++ spelled value
  | (key, value) :: next :: entries =>
    spelled key ++ ": ".toText ++ spelled value ++ ", ".toText ++ spelledEntries (next :: entries)

end

def shown : Value → Text
  | .text t => t
  | .moment m => Iso.writeWith ' ' .full m
  | .date d => Iso.dateText d
  | v => v.spelled

/-- The failure to write an integer that has too many digits. -/
def unwritable : Failure :=
  .fault .badValue Number.unwritable

mutual

/-- Can every integer in the value be written? -/
def isWritable : Value → Bool
  | .int i => Number.isWritable i
  | .list items | .tuple items | .set items => areWritable items
  | .dict entries => entriesAreWritable entries
  | _ => true

def areWritable : List Value → Bool
  | [] => true
  | v :: vs => isWritable v && areWritable vs

def entriesAreWritable : List (Value × Value) → Bool
  | [] => true
  | (key, value) :: entries => isWritable key && isWritable value && entriesAreWritable entries

end

def keyText (key : Value) : Except Failure Text :=
  if key.isWritable then .ok key.shown else .error unwritable

end Value

end GuardedConsole
