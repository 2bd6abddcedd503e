import GuardedConsole.Text.CodePoint

/-!
# Texts

A text is a list of code points. This module holds the operations on texts that know nothing of
letters: replacing, joining, cutting at a character, padding, trimming of blanks, the first line.
`String.toText` is the text of a string; only a text with half of a surrogate pair is not that of any
string.
-/

namespace GuardedConsole

abbrev Text := List CodePoint

end GuardedConsole

def String.toText (s : String) : GuardedConsole.Text :=
  s.toList.map .char

namespace GuardedConsole.Text

def dropEndWhile (p : CodePoint → Bool) (t : Text) : Text :=
  (t.reverse.dropWhile p).reverse

def trimWhile (p : CodePoint → Bool) (t : Text) : Text :=
  dropEndWhile p (t.dropWhile p)

/-- Every backslash that stands directly before `quote` is dropped, from left to right. -/
def unescape (quote : CodePoint) : Text → Text
  | [] => []
  | [c] => [c]
  | c :: d :: rest =>
    if c = '\\' ∧ d = quote then quote :: unescape quote rest
    else c :: unescape quote (d :: rest)

def replaceChar (old new : CodePoint) (t : Text) : Text :=
  t.map fun c => if c = old then new else c

def cutAt (mark : CodePoint) : Text → Text × Option Text
  | [] => ([], none)
  | c :: rest =>
    if c = mark then ([], some rest)
    else
      let (before, after) := cutAt mark rest
      (c :: before, after)

def joinWith (separator : Text) : List Text → Text
  | [] => []
  | [part] => part
  | part :: parts => part ++ separator ++ joinWith separator parts

def padRight (width : Nat) (t : Text) : Text :=
  t ++ List.replicate (width - t.length) (.char ' ')

def precedes : Text → Text → Bool
  | _, [] => false
  | [], _ :: _ => true
  | c :: s, d :: t => c.toNat < d.toNat || (c == d && precedes s t)

def named (name : Text) : Text :=
  .char '\'' :: name ++ [.char '\'']

/-! ### Blanks and lines -/

/-- The six blanks of ASCII text: space, tab, line feed, vertical tab, form feed, return. A
construction admits these after `new`. -/
def isAsciiBlank (c : CodePoint) : Bool :=
  c == ' ' || (9 ≤ c.toNat && c.toNat ≤ 13)

/-- The whitespace of Unicode, and the four separators FS, GS, RS and US. -/
def isBlank (c : CodePoint) : Bool :=
  let n := c.toNat
  isAsciiBlank c || (0x1c ≤ n && n ≤ 0x1f) || n == 0x85 || n == 0xa0 || n == 0x1680 ||
    (0x2000 ≤ n && n ≤ 0x200a) || n == 0x2028 || n == 0x2029 || n == 0x202f || n == 0x205f ||
    n == 0x3000

def trim (t : Text) : Text :=
  trimWhile isBlank t

/-- A line ends at any of the line breaks of Unicode; a return directly followed by a line feed is
one break. -/
def isLineBreak (c : CodePoint) : Bool :=
  let n := c.toNat
  (10 ≤ n && n ≤ 13) || (0x1c ≤ n && n ≤ 0x1e) || n == 0x85 || n == 0x2028 || n == 0x2029

def firstLine (t : Text) : Text :=
  t.takeWhile fun c => !isLineBreak c

end GuardedConsole.Text
