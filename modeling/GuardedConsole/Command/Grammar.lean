import GuardedConsole.Value.Literal

/-!
# Commands

A command is a dotted path of one to three ASCII words, such a path followed by arguments in
parentheses, or `new`, a class name and arguments. `Command.parse` recognizes a text as one of
these; one line feed may follow it. The arguments must not close a bracket that they did not open.
-/

namespace GuardedConsole

/-- A root name and at most two names of members below it. -/
structure Path where
  root : Text
  members : List Text
  short : members.length ≤ 2
deriving DecidableEq

namespace Path

def segments (p : Path) : List Text :=
  p.root :: p.members

def name (p : Path) : Text :=
  p.members.getLastD p.root

def scope (p : Path) : Text :=
  (p.root :: p.members.dropLast).getLastD p.root

def text (p : Path) : Text :=
  Text.joinWith [.char '.'] p.segments

end Path

/-- A recognized command. -/
inductive Command where
  | property (path : Path)
  | call (path : Path) (arguments : List Value)
  | construct (name : Text) (arguments : List Value)

namespace Command

def withoutFinalBreak (t : Text) : Text :=
  if t.getLast? = some (.char '\n') then t.dropLast else t

def isName (t : Text) : Bool :=
  !t.isEmpty && t.all Text.isAsciiWord

def dotted : Text → List Text
  | [] => [[]]
  | c :: t =>
    if c = '.' then [] :: dotted t
    else
      match dotted t with
      | [] => [[c]]
      | part :: parts => (c :: part) :: parts

def readPath? (t : Text) : Option Path :=
  match dotted t with
  | [] => none
  | root :: members =>
    if h : members.length ≤ 2 then
      if isName root && members.all isName then some ⟨root, members, h⟩ else none
    else none

/-- A text that ends with a closing parenthesis, cut at its first opening one: what stands before
the parentheses and what stands in them. -/
def cutCall? (t : Text) : Option (Text × Text) :=
  match t.cutAt '(' with
  | (head, some rest) =>
    if rest.getLast? = some (.char ')') then some (head, rest.dropLast) else none
  | (_, none) => none

def className? (head : Text) : Option Text :=
  match head with
  | .char 'n' :: .char 'e' :: .char 'w' :: rest =>
    let name := rest.dropWhile Text.isAsciiBlank
    if name.length < rest.length && isName name then some name else none
  | _ => none

/-- The shape of a command before its arguments are read. -/
inductive Shape where
  | property (path : Path)
  | call (path : Path) (arguments : Text)
  | construct (name : Text) (arguments : Text)
deriving DecidableEq

def shape? (t : Text) : Option Shape :=
  let t := withoutFinalBreak t
  match readPath? t with
  | some path => some (.property path)
  | none =>
    match cutCall? t with
    | none => none
    | some (head, arguments) =>
      if !Argument.isWellNested arguments then none
      else
        match readPath? head with
        | some path => some (.call path arguments)
        | none => (className? head).map fun name => .construct name arguments

def ofShape (now : Time.Moment) : Shape → Except Failure Command
  | .property path => .ok (.property path)
  | .call path arguments =>
    match Literal.readArguments now arguments with
    | .ok values => .ok (.call path values)
    | .error f => .error f
  | .construct name arguments =>
    match Literal.readArguments now arguments with
    | .ok values => .ok (.construct name values)
    | .error f => .error f

def parse (now : Time.Moment) (t : Text) : Except Failure (Option Command) :=
  match shape? t with
  | none => .ok none
  | some shape =>
    match ofShape now shape with
    | .ok command => .ok (some command)
    | .error f => .error f

end Command

end GuardedConsole
