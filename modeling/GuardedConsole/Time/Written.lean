import GuardedConsole.Text.Basic
import GuardedConsole.Text.Word
import GuardedConsole.Time.Moment

/-!
# Written dates

Dates such as `2024/3/5`, `3/5/2024`, `March 5, 2024` and `5 Mar 2024`, alone or followed by a time
of day `H:MM` or `H:MM:SS`. A form is a list of items; `Form.matches` lists the readings of a text
by a form in order of preference, and `Form.read?` accepts the first of them if it uses up the text.
-/

namespace GuardedConsole.Time.Written

/-- One item of a written form. -/
inductive Item where
  | year
  | month
  | monthName (long : Bool)
  | day
  | hour
  | minute
  | second
  | blanks
  | mark (c : CodePoint)
deriving DecidableEq

abbrev Form := List Item

def monthNames : List Text :=
  ["january", "february", "march", "april", "may", "june", "july", "august", "september",
    "october", "november", "december"].map String.toText

def asciiDigit (low high : Nat) (c : CodePoint) : Option Nat :=
  if Text.isAsciiDigit c ∧ low ≤ Number.digitOf c ∧ Number.digitOf c ≤ high then
    some (Number.digitOf c)
  else none

def spaceDigit (c : CodePoint) : Option Nat :=
  if c = ' ' then some 0 else none

def readDigits : List (CodePoint → Option Nat) → Nat → Text → Option (Nat × Text)
  | [], n, t => some (n, t)
  | _ :: _, _, [] => none
  | digit :: more, n, c :: t =>
    match digit c with
    | none => none
    | some d => readDigits more (10 * n + d) t

def shapes : Item → List (List (CodePoint → Option Nat))
  | .year => [List.replicate 4 Text.digitValue?]
  | .month => [[asciiDigit 1 1, asciiDigit 0 2], [asciiDigit 0 0, asciiDigit 1 9], [asciiDigit 1 9]]
  | .day =>
    [[asciiDigit 3 3, asciiDigit 0 1], [asciiDigit 1 2, Text.digitValue?],
      [asciiDigit 0 0, asciiDigit 1 9], [asciiDigit 1 9], [spaceDigit, asciiDigit 1 9]]
  | .hour =>
    [[asciiDigit 2 2, asciiDigit 0 3], [asciiDigit 0 1, Text.digitValue?], [Text.digitValue?]]
  | .minute => [[asciiDigit 0 5, Text.digitValue?], [Text.digitValue?]]
  | .second =>
    [[asciiDigit 6 6, asciiDigit 0 1], [asciiDigit 0 5, Text.digitValue?], [Text.digitValue?]]
  | _ => []

def afterWord : Text → Text → Option Text
  | [], t => some t
  | _ :: _, [] => none
  | w :: word, c :: t => if w = c.toLower then afterWord word t else none

def readMonthName (long : Bool) (t : Text) : List (Nat × Text) :=
  (monthNames.zipIdx 1).filterMap fun (name, number) =>
    (afterWord (if long then name else name.take 3) t).map fun rest => (number, rest)

/-- The rests of a text after one or more blanks, the longest run of blanks first. -/
def afterBlanks : Text → List Text
  | [] => []
  | c :: t => if Text.isBlank c then afterBlanks t ++ [t] else []

def put (f : Fields) (item : Item) (n : Nat) : Fields :=
  match item with
  | .year => { f with year := n }
  | .month | .monthName _ => { f with month := n }
  | .day => { f with day := n }
  | .hour => { f with hour := n }
  | .minute => { f with minute := n }
  | .second => { f with second := n }
  | .blanks | .mark _ => f

def readItem (f : Fields) (item : Item) (t : Text) : List (Fields × Text) :=
  match item with
  | .mark c =>
    match t with
    | d :: rest => if c = d then [(f, rest)] else []
    | [] => []
  | .blanks => (afterBlanks t).map fun rest => (f, rest)
  | .monthName long => (readMonthName long t).map fun (n, rest) => (put f item n, rest)
  | item =>
    (shapes item).filterMap fun shape =>
      (readDigits shape 0 t).map fun (n, rest) => (put f item n, rest)

/-- The readings of a text by a form, in order of preference: the earlier an item, the more its
preferences weigh. -/
def Form.matches (f : Fields) : Form → Text → List (Fields × Text)
  | [], t => [(f, t)]
  | item :: form, t =>
    (readItem f item t).flatMap fun (f, rest) => Form.matches f form rest

/-- The moment that a text denotes by a form: the preferred reading must use up the text, and its
parts must be in their ranges. -/
def Form.read? (form : Form) (t : Text) : Option Moment :=
  match Form.matches { year := 0 } form t with
  | (f, []) :: _ => (Moment.ofFields f none).toOption
  | _ => none

def dateForms : List Form :=
  [[.year, .mark '/', .month, .mark '/', .day],
    [.month, .mark '/', .day, .mark '/', .year],
    [.monthName false, .blanks, .day, .blanks, .year],
    [.monthName true, .blanks, .day, .blanks, .year],
    [.monthName false, .blanks, .day, .mark ',', .blanks, .year],
    [.monthName true, .blanks, .day, .mark ',', .blanks, .year],
    [.day, .blanks, .monthName false, .blanks, .year],
    [.day, .blanks, .monthName true, .blanks, .year]]

def timeForms : List Form :=
  [[], [.blanks, .hour, .mark ':', .minute],
    [.blanks, .hour, .mark ':', .minute, .mark ':', .second]]

def forms : List Form :=
  dateForms.flatMap fun date => timeForms.map fun time => date ++ time

def read? (t : Text) : Option Moment :=
  forms.findSome? fun form => form.read? t

end GuardedConsole.Time.Written
