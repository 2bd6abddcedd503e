import GuardedConsole.Console.History
import GuardedConsole.Failure
import GuardedConsole.Json.Reader
import GuardedConsole.Json.Basic
import GuardedConsole.Time.Iso

/-!
# State files

A state file holds the entries of a history and the moment at which they were saved.
`StateFile.write` makes the text of one, and `StateFile.read` takes the entries out of any text: a
text that is no such file has none.
-/

namespace GuardedConsole.StateFile

def write (now : Time.Moment) (entries : List Text) : Text :=
  Json.write (.record
    [("history".toText, .list (entries.map .text)),
      ("saved".toText, .text (Time.Iso.write now))]) ++ [.char '\n']

def texts (items : List Json) : List Text :=
  items.filterMap fun
    | .text t => some t
    | _ => none

def entriesOf : Json → List Text
  | .record members =>
    match Table.find? "history".toText members with
    | some (.list items) => texts items
    | _ => []
  | _ => []

/-- The entries in the text of a state file. Only an integer with too many digits is a failure. -/
def read (content : Text) : Except Failure (List Text) :=
  match Json.read content with
  | .ok document => .ok (entriesOf document)
  | .error .malformed => .ok []
  | .error (.tooManyDigits count) => .error (.fault .badValue (Number.tooManyDigits count))

def load (size : Int) : Option Text → Except Failure History
  | none => .ok { size }
  | some content => (read content).map (History.ofEntries size)

end GuardedConsole.StateFile
