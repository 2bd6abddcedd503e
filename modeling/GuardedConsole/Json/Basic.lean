import GuardedConsole.Named
import GuardedConsole.Number.Shortest
import GuardedConsole.Text.Quoted

/-!
# JSON documents

The document type, with integers kept apart from doubles. `Json.write` lays a document out over several
lines with an indentation of two spaces per level. The result is ASCII: every other character is
escaped. A document `isWritable` if no integer in it has too many digits to be written.
-/

namespace GuardedConsole

/-- A JSON document. The members of a record have distinct names, in the order in which the names first
occurred. -/
inductive Json where
  | null
  | bool (b : Bool)
  | int (i : Int)
  | float (x : Number.Binary64)
  | text (t : Text)
  | list (items : List Json)
  | record (members : List (Text × Json))

namespace Json

open Number

def unitEscape (n : Nat) : Text :=
  .char '\\' :: .char 'u' :: Text.hexDigits 4 n

def escapeChar (c : CodePoint) : Text :=
  if c = '"' ∨ c = '\\' then [.char '\\', c]
  else if c = '\n' then [.char '\\', .char 'n']
  else if c = '\r' then [.char '\\', .char 'r']
  else if c = '\t' then [.char '\\', .char 't']
  else if c = '\x0c' then [.char '\\', .char 'f']
  else if c = '\x08' then [.char '\\', .char 'b']
  else if 32 ≤ c.toNat ∧ c.toNat < 127 then [c]
  else if c.toNat < 0x10000 then unitEscape c.toNat
  else
    let n := c.toNat - 0x10000
    unitEscape (0xd800 + n / 0x400) ++ unitEscape (0xdc00 + n % 0x400)

def stringText (t : Text) : Text :=
  .char '"' :: t.flatMap escapeChar ++ [.char '"']

def floatText : Binary64 → Text
  | .nan => "NaN".toText
  | .infinite false => "Infinity".toText
  | .infinite true => "-Infinity".toText
  | x => x.text

def newLine (level : Nat) : Text :=
  .char '\n' :: List.replicate (2 * level) (.char ' ')

mutual

def writeAt (level : Nat) : Json → Text
  | .null => "null".toText
  | .bool true => "true".toText
  | .bool false => "false".toText
  | .int i => intText i
  | .float x => floatText x
  | .text t => stringText t
  | .list [] => "[]".toText
  | .list (item :: items) =>
    .char '[' :: newLine (level + 1) ++ writeAt (level + 1) item ++ writeItems (level + 1) items ++
      newLine level ++ [.char ']']
  | .record [] => [.char '\x7b', .char '\x7d']
  | .record ((name, value) :: members) =>
    .char '\x7b' :: newLine (level + 1) ++ stringText name ++ ": ".toText ++
      writeAt (level + 1) value ++ writeMembers (level + 1) members ++ newLine level ++
      [.char '\x7d']

def writeItems (level : Nat) : List Json → Text
  | [] => []
  | item :: items => .char ',' :: newLine level ++ writeAt level item ++ writeItems level items

def writeMembers (level : Nat) : List (Text × Json) → Text
  | [] => []
  | (name, value) :: members =>
    .char ',' :: newLine level ++ stringText name ++ ": ".toText ++ writeAt level value ++
      writeMembers level members

end

/-- The layout of a document, whatever integers there are in it. -/
def write (document : Json) : Text :=
  writeAt 0 document

mutual

def isWritable : Json → Bool
  | .int i => Number.isWritable i
  | .list items => itemsAreWritable items
  | .record members => membersAreWritable members
  | _ => true

def itemsAreWritable : List Json → Bool
  | [] => true
  | item :: items => isWritable item && itemsAreWritable items

def membersAreWritable : List (Text × Json) → Bool
  | [] => true
  | (_, value) :: members => isWritable value && membersAreWritable members

end

end Json

end GuardedConsole
