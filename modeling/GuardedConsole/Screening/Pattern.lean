import GuardedConsole.Text.Basic
import GuardedConsole.Text.LetterCase
import GuardedConsole.Text.Word

/-!
# Patterns

A pattern is a row of elements, each standing for one character of a class or for any number of
them. `occursIn` searches a text for it, trying every length of every repetition; `Spells` says
without a search which texts a pattern stands for.
-/

namespace GuardedConsole.Screening

/-- A class of characters. -/
inductive CharClass where
  | letter (c : CodePoint)
  | exact (c : CodePoint)
  | blank
  | word
deriving DecidableEq

/-- Is the character in the class? Letter case counts only for `exact`. -/
def CharClass.holds : CharClass → CodePoint → Bool
  | .letter p, c => Text.matchesLetter p c
  | .exact p, c => p == c
  | .blank, c => Text.isBlank c
  | .word, c => Text.isWord c

/-- One character of a class, or any number of them. -/
inductive Element where
  | one (k : CharClass)
  | many (k : CharClass)
deriving DecidableEq

/-- A pattern with the text that shows it in messages. -/
structure Pattern where
  source : Text
  elements : List Element
deriving DecidableEq

/-- The texts that a row of elements stands for. -/
inductive Spells : List Element → Text → Prop where
  | nil : Spells [] []
  | one {k : CharClass} {es : List Element} {c : CodePoint} {t : Text} :
    k.holds c → Spells es t → Spells (.one k :: es) (c :: t)
  | done {k : CharClass} {es : List Element} {t : Text} :
    Spells es t → Spells (.many k :: es) t
  | more {k : CharClass} {es : List Element} {c : CodePoint} {t : Text} :
    k.holds c → Spells (.many k :: es) t → Spells (.many k :: es) (c :: t)

/-- Does `next` accept what is left of the text after some characters of the class? -/
def afterSome (k : CharClass) (next : Text → Bool) : Text → Bool
  | [] => next []
  | c :: t => next (c :: t) || (k.holds c && afterSome k next t)

def beginsWith : List Element → Text → Bool
  | [] => fun _ => true
  | .one k :: es => fun t =>
    match t with
    | [] => false
    | c :: t => k.holds c && beginsWith es t
  | .many k :: es => afterSome k (beginsWith es)

def occursIn (es : List Element) : Text → Bool
  | [] => beginsWith es []
  | c :: t => beginsWith es (c :: t) || occursIn es t

def caseless (word : String) : List Element :=
  word.toText.map fun c => .one (if Text.isAsciiLetter c then .letter c else .exact c)

def blanks : List Element :=
  [.many .blank]

def mark (c : CodePoint) : List Element :=
  [.one (.exact c)]

def oneOrMore (k : CharClass) : List Element :=
  [.one k, .many k]

end GuardedConsole.Screening
