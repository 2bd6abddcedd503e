import GuardedConsole.Interpreter.Basic
import GuardedConsole.Value.Display

/-!
# Classification of a text

`CommandLine.classification` shows how a text is read as a command, without executing it.
-/

namespace GuardedConsole.CommandLine

def line (t : Text) : Text :=
  t ++ [.char '\n']

def argumentLines (index : Nat) : List Value → Text
  | [] => []
  | v :: values =>
    line ("arg".toText ++ Number.natText index ++ ": ".toText ++ v.spelled) ++
      argumentLines (index + 1) values

def pathLine (path : Path) : Text :=
  line ("path: ".toText ++ path.text)

def shapeLines : Option Command → Text
  | none => line "shape: none".toText
  | some (.property path) => line "shape: PropertyAccess".toText ++ pathLine path
  | some (.call path arguments) =>
    line "shape: MethodCall".toText ++ pathLine path ++ argumentLines 0 arguments
  | some (.construct name arguments) =>
    line "shape: ConstructorCall".toText ++ line ("class: ".toText ++ name) ++
      argumentLines 0 arguments

def classification (now : Time.Moment) (t : Text) : Text :=
  line ("> ".toText ++ t) ++
    match Interpreter.parse now t with
    | .ok command => shapeLines command
    | .error f => line ("error: ".toText ++ f.message)

end GuardedConsole.CommandLine
