import GuardedConsole.Text.Printable

/-!
# Quoted forms

`quoted` writes a text between quotes so that it fits on one line: single quotes, unless the text
holds a single quote and no double quote.
-/

namespace GuardedConsole.Text

def hexDigit (n : Nat) : CodePoint :=
  if n < 10 then CodePoint.ofNat (48 + n) else CodePoint.ofNat (87 + n)

def hexDigits : Nat → Nat → Text
  | 0, _ => []
  | places + 1, n => hexDigits places (n / 16) ++ [hexDigit (n % 16)]

def chosenQuote (t : Text) : CodePoint :=
  if t.contains '\'' && !t.contains '"' then '"' else '\''

def escapeIn (quote c : CodePoint) : Text :=
  if c = quote ∨ c = '\\' then [.char '\\', c]
  else if c = '\n' then [.char '\\', .char 'n']
  else if c = '\r' then [.char '\\', .char 'r']
  else if c = '\t' then [.char '\\', .char 't']
  else if isPrintable c then [c]
  else if c.toNat < 0x100 then .char '\\' :: .char 'x' :: hexDigits 2 c.toNat
  else if c.toNat < 0x10000 then .char '\\' :: .char 'u' :: hexDigits 4 c.toNat
  else .char '\\' :: .char 'U' :: hexDigits 8 c.toNat

def quoted (t : Text) : Text :=
  chosenQuote t :: t.flatMap (escapeIn (chosenQuote t)) ++ [chosenQuote t]

end GuardedConsole.Text
