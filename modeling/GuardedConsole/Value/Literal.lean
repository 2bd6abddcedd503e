import GuardedConsole.Argument.Scan
import GuardedConsole.Json.Reader
import GuardedConsole.Time.Literal
import GuardedConsole.Value.Sanitize

/-!
# Literals

`Literal.read` turns the text of an argument into a value: keywords, quoted texts, numbers, dates,
objects and arrays. Any other text stands for itself. An object is read as JSON after its bare words
before colons are quoted and its apostrophes replaced; what JSON rejects is read entry by entry.
-/

namespace GuardedConsole.Literal

open Number

def keywords : Table Value :=
  [("null".toText, .null), ("undefined".toText, .undefined), ("true".toText, .bool true),
    ("false".toText, .bool false)]

def quotedContent? (t : Text) : Option Text :=
  (Time.Literal.unquote? t).map fun content => Text.unescape '\'' (Text.unescape '"' content)

def ofNumeral (n : Numeral) : Except Failure Value :=
  match n.fraction with
  | some _ => .ok (.float (Binary64.ofNumeral n))
  | none =>
    match integerOf n.negative n.whole with
    | .ok i => .ok (.int i)
    | .error count => .error (.fault .badValue (tooManyDigits count))

def dateExpression? (t : Text) : Option Text :=
  let start := "new Date(".toText
  if start.isPrefixOf t ∧ t.getLast? = some (.char ')') then
    some (Text.trim (t.drop start.length).dropLast)
  else none

/-- Puts quotes around every ASCII word that stands before a colon. `word` holds the word characters
just passed, in reverse order. -/
def quoteBareKeys (word : Text) : Text → Text
  | [] => word.reverse
  | c :: t =>
    if Text.isAsciiWord c then quoteBareKeys (c :: word) t
    else if c = ':' ∧ !word.isEmpty then
      .char '"' :: word.reverse ++ .char '"' :: .char ':' :: quoteBareKeys [] t
    else word.reverse ++ c :: quoteBareKeys [] t

def straightQuotes (t : Text) : Text :=
  Text.replaceChar '\'' '"' t

def surroundsKey (c : CodePoint) : Bool :=
  c == '"' || c == '\''

/-- The key and the text of the value of one entry, if it has a colon and its key is an ASCII word.
-/
def looseEntry? (t : Text) : Option (Text × Text) :=
  match t.cutAt ':' with
  | (key, some value) =>
    let key := Text.trimWhile surroundsKey key.trim
    if !key.isEmpty ∧ key.all Text.isAsciiWord then some (key, value.trim) else none
  | (_, none) => none

def readEntries (value : Text → Except Failure Value) (entries : Table Value) :
    List Text → Except Failure (Table Value)
  | [] => .ok entries
  | t :: rest =>
    match looseEntry? t with
    | none => readEntries value entries rest
    | some (key, text) =>
      match value text with
      | .error f => .error f
      | .ok v => readEntries value (entries.put key v) rest

def objectContent (t : Text) : Text :=
  if t.getLast? = some (.char '\x7d') then (t.drop 1).dropLast else t.drop 1

def dictOf (entries : Table Value) : Value :=
  .dict (entries.map fun (name, v) => (.text name, v))

def readLoosely (value : Text → Except Failure Value) (t : Text) : Except Failure Value :=
  match readEntries value [] (Argument.split (objectContent t)) with
  | .ok entries => .ok (dictOf entries)
  | .error f => .error f

def readObject (value : Text → Except Failure Value) (t : Text) : Except Failure Value :=
  match Json.read (straightQuotes (quoteBareKeys [] t)) with
  | .ok (.record members) => .ok (Value.ofJson (.record members)).sanitize
  | _ =>
    match readLoosely value t with
    | .ok v => .ok v.sanitize
    | .error f => .error f

def readArray (t : Text) : Value :=
  match Json.read (straightQuotes t) with
  | .ok (.list items) => .list (Value.ofItems items)
  | _ => .list []

def readWith (value : Text → Except Failure Value) (now : Time.Moment) (t : Text) :
    Except Failure Value :=
  match keywords.find? t with
  | some v => .ok v
  | none =>
    match quotedContent? t with
    | some content => .ok (.text content)
    | none =>
      match Numeral.read? t with
      | some n => ofNumeral n
      | none =>
        match dateExpression? t with
        | some inner =>
          match Time.Literal.readExpression now inner with
          | .ok m => .ok (.moment m)
          | .error f => .error f
        | none =>
          match t with
          | .char '\x7b' :: _ => readObject value t
          | .char '[' :: _ => .ok (readArray t)
          | _ => .ok (.text t)

def readNested (now : Time.Moment) : Nat → Text → Except Failure Value
  | 0 => fun t => .ok (.text t)
  | depth + 1 => readWith (readNested now depth) now

/-- Reads a literal. Objects are nested less deep than the text is long. -/
def read (now : Time.Moment) (t : Text) : Except Failure Value :=
  readNested now (t.length + 1) t

def readEach (now : Time.Moment) : List Text → Except Failure (List Value)
  | [] => .ok []
  | t :: rest =>
    match read now t with
    | .error f => .error f
    | .ok v =>
      match readEach now rest with
      | .ok vs => .ok (v :: vs)
      | .error f => .error f

def readArguments (now : Time.Moment) (t : Text) : Except Failure (List Value) :=
  readEach now (Argument.split t)

end GuardedConsole.Literal
