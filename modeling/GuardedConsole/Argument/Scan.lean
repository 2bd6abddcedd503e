import GuardedConsole.Text.Basic

/-!
# Arguments of a call

The scan state of an argument list tells whether a quoted text is open and how deep the brackets
are. `isWellNested` checks that no bracket closes what is not open, and `split` cuts the list at the
commas that are outside quoted texts and brackets.
-/

namespace GuardedConsole.Argument

def isOpener (c : CodePoint) : Bool :=
  c == '\x7b' || c == '[' || c == '('

def isCloser (c : CodePoint) : Bool :=
  c == '\x7d' || c == ']' || c == ')'

def isQuote (c : CodePoint) : Bool :=
  c == '"' || c == '\''

/-- What a scan knows: the quote of the open quoted text, the depth of brackets outside quoted
texts, and whether the last character was a backslash. -/
structure Scan where
  quote : Option CodePoint := none
  depth : Int := 0
  escaped : Bool := false
deriving DecidableEq

namespace Scan

def bracket (c : CodePoint) : Int :=
  if isOpener c then 1 else if isCloser c then -1 else 0

/-- The state after one more character. A quoted text ends at its own quote unless a backslash
stands directly before it. -/
def step (s : Scan) (c : CodePoint) : Scan :=
  match s.quote with
  | some q =>
    { s with quote := if c = q ∧ s.escaped = false then none else some q, escaped := c == '\\' }
  | none =>
    if isQuote c then { s with quote := some c, escaped := false }
    else { s with depth := s.depth + bracket c, escaped := c == '\\' }

def run (s : Scan) (t : Text) : Scan :=
  t.foldl step s

def separates (s : Scan) (c : CodePoint) : Bool :=
  c == ',' && s.quote.isNone && s.depth == 0

end Scan

def staysNested (s : Scan) : Text → Bool
  | [] => true
  | c :: t => let s := s.step c; 0 ≤ s.depth && staysNested s t

/-- Does no bracket close where none is open? Brackets may stay open. -/
def isWellNested (t : Text) : Bool :=
  staysNested {} t

def pieces (s : Scan) : Text → List Text
  | [] => [[]]
  | c :: t =>
    if s.separates c then [] :: pieces (s.step c) t
    else
      match pieces (s.step c) t with
      | [] => [[c]]
      | p :: ps => (c :: p) :: ps

/-- The list without its last text if that is empty. -/
def withoutEmptyLast : List Text → List Text
  | [] => []
  | [p] => if p.isEmpty then [] else [p]
  | p :: q :: ps => p :: withoutEmptyLast (q :: ps)

/-- The arguments of a call, trimmed. A blank one is kept unless it is the last. -/
def split (t : Text) : List Text :=
  withoutEmptyLast ((pieces {} t).map Text.trim)

end GuardedConsole.Argument
