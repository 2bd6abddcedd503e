import GuardedConsole.Text.Word

/-!
# Decimal digits

Natural numbers and integers are written in decimal digits without leading zeros and read from
ASCII digits with any number of them. A literal of more than `maxIntegerDigits` digits is refused, and
so is writing an integer that has more.
-/

namespace GuardedConsole.Number

def digitChar (d : Nat) : CodePoint :=
  CodePoint.ofNat (48 + d)

def digitOf (c : CodePoint) : Nat :=
  c.toNat - 48

/-- The decimal digits of `n`, most significant first, in front of `rest`; `fuel` bounds their
number. -/
def digitsOnto : Nat → Nat → Text → Text
  | 0, _, rest => rest
  | fuel + 1, n, rest =>
    if n < 10 then digitChar n :: rest
    else digitsOnto fuel (n / 10) (digitChar (n % 10) :: rest)

def natText (n : Nat) : Text :=
  digitsOnto (n.log2 + 1) n []

def intText (i : Int) : Text :=
  if i < 0 then .char '-' :: natText i.natAbs else natText i.natAbs

def ofDigits (t : Text) : Nat :=
  t.foldl (fun n c => 10 * n + digitOf c) 0

def padded (width n : Nat) : Text :=
  let digits := natText n
  List.replicate (width - digits.length) (.char '0') ++ digits

def maxIntegerDigits : Nat := 4300

/-- The integer written by a sign and a text of digits; the number of digits if they are too many.
-/
def integerOf (negative : Bool) (digits : Text) : Except Nat Int :=
  if digits.length > maxIntegerDigits then .error digits.length
  else if negative then .ok (-(ofDigits digits : Int)) else .ok (ofDigits digits)

def tooManyDigits (count : Nat) : Text :=
  "Exceeds the limit (4300 digits) for integer string conversion: value has ".toText ++
    natText count ++
    " digits; use sys.set_int_max_str_digits() to increase the limit".toText

/-- Can the integer be written without going over the limit? -/
def isWritable (i : Int) : Bool :=
  i.natAbs < Nat.pow 10 maxIntegerDigits

def unwritable : Text :=
  "Exceeds the limit (4300 digits) for integer string conversion; use ".toText ++
    "sys.set_int_max_str_digits() to increase the limit".toText

/-- A decimal numeral taken apart: a sign, the digits before the point and those after it. -/
structure Numeral where
  negative : Bool
  whole : Text
  fraction : Option Text
deriving DecidableEq

/-- Reads a whole text as a numeral: an optional minus sign, digits, and optionally a point followed
by digits. -/
def Numeral.read? (t : Text) : Option Numeral :=
  let (negative, unsigned) := match t with
    | .char '-' :: rest => (true, rest)
    | _ => (false, t)
  let whole := unsigned.takeWhile Text.isAsciiDigit
  match whole, unsigned.dropWhile Text.isAsciiDigit with
  | [], _ => none
  | _, [] => some ⟨negative, whole, none⟩
  | _, .char '.' :: fraction =>
    if !fraction.isEmpty && fraction.all Text.isAsciiDigit then
      some ⟨negative, whole, some fraction⟩
    else none
  | _, _ => none

def Numeral.text (n : Numeral) : Text :=
  (if n.negative then [.char '-'] else []) ++ n.whole ++
    match n.fraction with
    | none => []
    | some digits => .char '.' :: digits

end GuardedConsole.Number
