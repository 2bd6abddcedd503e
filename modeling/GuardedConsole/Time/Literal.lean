import GuardedConsole.Time.Epoch
import GuardedConsole.Time.Spelled
import GuardedConsole.Time.Written

/-!
# Date literals

`readText` reads a date in ISO form or in one of the written forms. `readExpression` reads the
inside of a date literal: nothing for the current moment, a quoted date, milliseconds since 1970,
the current moment plus or minus milliseconds, or a date without quotes.
-/

namespace GuardedConsole.Time.Literal

open Number

def unquote? (t : Text) : Option Text :=
  match t with
  | q :: rest =>
    if (q = '\'' ∨ q = '"') ∧ rest.getLast? = some q then some rest.dropLast else none
  | [] => none

def notDate (shown : Text) : Failure :=
  .fault .undecodable ("Invalid date: ".toText ++ shown)

def expandZulu (t : Text) : Text :=
  if t.getLast? = some (.char 'Z') then t.dropLast ++ "+00:00".toText else t

def readText (t : Text) : Except Failure Moment :=
  match Iso.read (expandZulu t.trim) with
  | .ok m => .ok m
  | .error _ =>
    match Written.read? t.trim with
    | some m => .ok m
    | none => .error (notDate t.quoted)

def nowOffset? (t : Text) : Option (Bool × Text) :=
  let start := "Date.now()".toText
  if start.isPrefixOf t then
    match (t.drop start.length).dropWhile Text.isBlank with
    | sign :: rest =>
      let digits := rest.dropWhile Text.isBlank
      if (sign = '+' ∨ sign = '-') ∧ !digits.isEmpty ∧ digits.all Text.isAsciiDigit then
        some (sign == '-', digits)
      else none
    | [] => none
  else none

def stepFromNow (now : Moment) (back : Bool) (digits : Text) : Except Failure Moment :=
  match integerOf false digits with
  | .error count => .error (.fault .badValue (tooManyDigits count))
  | .ok millis =>
    match Epoch.step now back millis.toNat with
    | .ok m => .ok m
    | .error e => .error e.failure

def readExpression (now : Moment) (t : Text) : Except Failure Moment :=
  if t.isEmpty then .ok now
  else
    match unquote? t with
    | some inner => readText inner
    | none =>
      match Numeral.read? t with
      | some n =>
        match Epoch.ofMillis (Binary64.ofNumeral n) with
        | .ok m => .ok m
        | .error e =>
          .error (notDate (t ++ " (".toText ++ e.failure.message ++ ")".toText))
      | none =>
        match nowOffset? t with
        | some (back, digits) => stepFromNow now back digits
        | none => readText t

end GuardedConsole.Time.Literal
