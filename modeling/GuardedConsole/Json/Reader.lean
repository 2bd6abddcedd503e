import GuardedConsole.Json.Basic
import GuardedConsole.Text.Word

/-!
# Reading JSON

`Json.read` reads a whole text as one document. Beyond the standard it admits `NaN`, `Infinity` and
`-Infinity`; of members with the same name the last value counts. An integer of too many digits is
refused in its own way.
-/

namespace GuardedConsole.Json

open Number

/-- Why a text is not read. -/
inductive ReadError where
  | malformed
  | tooManyDigits (count : Nat)
deriving DecidableEq

abbrev Reading (α : Type) := Except ReadError (α × Text)

def isSpace (c : CodePoint) : Bool :=
  c == ' ' || c == '\t' || c == '\n' || c == '\r'

def skipSpace (t : Text) : Text :=
  t.dropWhile isSpace

def hexValue? (c : CodePoint) : Option Nat :=
  let n := c.toNat
  if 48 ≤ n ∧ n ≤ 57 then some (n - 48)
  else if 97 ≤ n ∧ n ≤ 102 then some (n - 87)
  else if 65 ≤ n ∧ n ≤ 70 then some (n - 55)
  else none

def hexPoint? (a b c d : CodePoint) : Option CodePoint := do
  let a ← hexValue? a
  let b ← hexValue? b
  let c ← hexValue? c
  let d ← hexValue? d
  some (.ofNat (((a * 16 + b) * 16 + c) * 16 + d))

def escapeValue? (c : CodePoint) : Option CodePoint :=
  match c with
  | .char '"' => some '"'
  | .char '\\' => some '\\'
  | .char '/' => some '/'
  | .char 'b' => some '\x08'
  | .char 'f' => some '\x0c'
  | .char 'n' => some '\n'
  | .char 'r' => some '\r'
  | .char 't' => some '\t'
  | _ => none

/-- Puts the point of an escape before the content of what stands behind the escape. A first half
is joined with a second half only if that is an escape too. -/
def putEscape (point : CodePoint) (behind content : Text) : Text :=
  match point, behind, content with
  | .high k, .char '\\' :: .char 'u' :: _, .low l :: after => CodePoint.paired k l :: after
  | point, _, content => point :: content

/-- The content of a string up to its closing quote, and the text after that. -/
def readContent : Text → Option (Text × Text)
  | [] => none
  | c :: t =>
    if c = '"' then some ([], t)
    else if c = '\\' then
      match t with
      | .char 'u' :: w :: x :: y :: z :: rest => do
        let point ← hexPoint? w x y z
        let (content, after) ← readContent rest
        some (putEscape point rest content, after)
      | e :: rest => do
        let point ← escapeValue? e
        let (content, after) ← readContent rest
        some (point :: content, after)
      | [] => none
    else if c.toNat < 0x20 then none
    else do
      let (content, after) ← readContent t
      some (c :: content, after)

def readString (t : Text) : Reading Text :=
  match readContent t with
  | some read => .ok read
  | none => .error .malformed

def takeDigits (t : Text) : Text × Text :=
  (t.takeWhile Text.isAsciiDigit, t.dropWhile Text.isAsciiDigit)

def takeFraction (t : Text) : Option Text × Text :=
  match t with
  | .char '.' :: rest =>
    match takeDigits rest with
    | ([], _) => (none, t)
    | (digits, rest) => (some digits, rest)
  | _ => (none, t)

def takeExponent (t : Text) : Option Int × Text :=
  match t with
  | e :: rest =>
    if e = 'e' ∨ e = 'E' then
      let (negative, unsigned) := match rest with
        | .char '-' :: u => (true, u)
        | .char '+' :: u => (false, u)
        | u => (false, u)
      match takeDigits unsigned with
      | ([], _) => (none, t)
      | (digits, rest) =>
        let n : Int := ofDigits digits
        (some (if negative then -n else n), rest)
    else (none, t)
  | [] => (none, t)

/-- Takes the digits of a whole number: a zero alone, or digits that begin with another one. -/
def takeWhole (t : Text) : Option (Text × Text) :=
  match t with
  | .char '0' :: rest => some ([.char '0'], rest)
  | _ =>
    match takeDigits t with
    | ([], _) => none
    | (digits, rest) => some (digits, rest)

/-- Reads a number. It is an integer unless it has a fraction or an exponent. -/
def readNumber (t : Text) : Reading Json :=
  let (negative, unsigned) := match t with
    | .char '-' :: u => (true, u)
    | u => (false, u)
  match takeWhole unsigned with
  | none => .error .malformed
  | some (whole, t) =>
    let (fraction, t) := takeFraction t
    let (exponent, t) := takeExponent t
    match fraction, exponent with
    | none, none =>
      match integerOf negative whole with
      | .ok i => .ok (.int i, t)
      | .error count => .error (.tooManyDigits count)
    | fraction, exponent =>
      let digits := fraction.getD []
      let e := exponent.getD 0 - digits.length
      .ok (.float (Binary64.ofDecimal negative (ofDigits (whole ++ digits)) e), t)

def words : List (Text × Json) :=
  [("null".toText, .null), ("true".toText, .bool true), ("false".toText, .bool false),
    ("NaN".toText, .float .nan), ("Infinity".toText, .float (.infinite false)),
    ("-Infinity".toText, .float (.infinite true))]

def readAtom (t : Text) : Reading Json :=
  match words.find? fun entry => entry.1.isPrefixOf t with
  | some (word, value) => .ok (value, t.drop word.length)
  | none => readNumber t

mutual

/-- Reads one value. Every step uses up fuel. -/
def readValue : Nat → Text → Reading Json
  | 0, _ => .error .malformed
  | fuel + 1, t =>
    match t with
    | .char '"' :: rest =>
      match readString rest with
      | .ok (s, rest) => .ok (.text s, rest)
      | .error e => .error e
    | .char '[' :: rest =>
      match skipSpace rest with
      | .char ']' :: rest => .ok (.list [], rest)
      | rest =>
        match readItems fuel rest with
        | .ok (items, rest) => .ok (.list items, rest)
        | .error e => .error e
    | .char '\x7b' :: rest =>
      match skipSpace rest with
      | .char '\x7d' :: rest => .ok (.record [], rest)
      | rest =>
        match readMembers fuel [] rest with
        | .ok (members, rest) => .ok (.record members, rest)
        | .error e => .error e
    | t => readAtom t

def readItems : Nat → Text → Reading (List Json)
  | 0, _ => .error .malformed
  | fuel + 1, t =>
    match readValue fuel t with
    | .error e => .error e
    | .ok (item, rest) =>
      match skipSpace rest with
      | .char ']' :: rest => .ok ([item], rest)
      | .char ',' :: rest =>
        match readItems fuel (skipSpace rest) with
        | .ok (items, rest) => .ok (item :: items, rest)
        | .error e => .error e
      | _ => .error .malformed

def readMembers : Nat → List (Text × Json) → Text → Reading (List (Text × Json))
  | 0, _, _ => .error .malformed
  | fuel + 1, members, t =>
    match t with
    | .char '"' :: rest =>
      match readString rest with
      | .error e => .error e
      | .ok (name, rest) =>
        match skipSpace rest with
        | .char ':' :: rest =>
          match readValue fuel (skipSpace rest) with
          | .error e => .error e
          | .ok (value, rest) =>
            let members := Table.put name value members
            match skipSpace rest with
            | .char '\x7d' :: rest => .ok (members, rest)
            | .char ',' :: rest => readMembers fuel members (skipSpace rest)
            | _ => .error .malformed
        | _ => .error .malformed
    | _ => .error .malformed

end

def read (t : Text) : Except ReadError Json :=
  match readValue (2 * t.length + 2) (skipSpace t) with
  | .error e => .error e
  | .ok (value, rest) => if (skipSpace rest).isEmpty then .ok value else .error .malformed

end GuardedConsole.Json
