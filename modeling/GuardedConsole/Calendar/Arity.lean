import GuardedConsole.Failure
import GuardedConsole.Number.Digits

/-!
# Parameters of functions

A signature names the parameters of a function; the last ones may be optional. `check` refuses a
call with too many arguments or without a required one.
-/

namespace GuardedConsole

/-- The parameters of a function. -/
structure Signature where
  function : Text
  parameters : List Text
  required : Nat := parameters.length
deriving DecidableEq

namespace Signature

/-- The signature of a method with a name and parameters. Its first parameter is the object that has
it. -/
def ofMethod (owner : String) (form : String × List String) : Signature :=
  { function := owner.toText ++ .char '.' :: form.1.toText
    parameters := "self".toText :: form.2.map String.toText }

def listed : List Text → Text
  | [] => []
  | [a] => a.named
  | [a, b] => a.named ++ " and ".toText ++ b.named
  | names =>
    Text.joinWith ", ".toText (names.dropLast.map Text.named) ++ ", and ".toText ++
      (names.getLastD []).named

def plural (n : Nat) : Text :=
  if n = 1 then [] else [.char 's']

def tooMany (s : Signature) (given : Nat) : Failure :=
  let count := s.parameters.length
  let taken := if s.required = count then Number.natText count ++ " positional argument".toText ++
      plural count
    else "from ".toText ++ Number.natText s.required ++ " to ".toText ++ Number.natText count ++
      " positional arguments".toText
  .fault .wrongType
    (s.function ++ "() takes ".toText ++ taken ++ " but ".toText ++ Number.natText given ++
      (if given = 1 then " was given" else " were given").toText)

def missing (s : Signature) (names : List Text) : Failure :=
  .fault .wrongType
    (s.function ++ "() missing ".toText ++ Number.natText names.length ++
      " required positional argument".toText ++ plural names.length ++ ": ".toText ++ listed names)

def check (s : Signature) (given : Nat) : Except Failure Unit :=
  if s.parameters.length < given then .error (s.tooMany given)
  else
    match (s.parameters.take s.required).drop given with
    | [] => .ok ()
    | names => .error (s.missing names)

end Signature

end GuardedConsole
