import GuardedConsole.Interpreter.Basic

/-!
# Completion

`Interpreter.offers` finds what an interpreter offers to someone who types a command: constructions,
names of the context, and allow-listed methods of its values and of their members.
`Interpreter.completionsOn` lists the texts that such commands begin with, in order and without
repetition; `Interpreter.completions` does so in a world.
-/

namespace GuardedConsole

/-- What can be offered: a name of the context, a call, or a construction. -/
inductive Offer where
  | root (name : Text)
  | call (path : Path)
  | construct (name : Text)
deriving DecidableEq

/-- What a command begins with. A name is a command already. -/
def Offer.text : Offer → Text
  | .root name => name
  | .call path => path.text ++ [.char '(']
  | .construct name => "new ".toText ++ name ++ [.char '(']

namespace Interpreter

variable {σ : Type}

/-- Is there a public member with this name? -/
def hasMember (h : Host σ) (s : σ) (v : Value) (name : Text) : Except Failure Bool :=
  if isPrivate name then .ok false else (h.member? s name v).map Option.isSome

/-- The offers, if the value has a public member with the name. -/
def offersIf (h : Host σ) (s : σ) (v : Value) (name : Text) (offers : List Offer) :
    Except Failure (List Offer) :=
  (hasMember h s v name).map fun found => if found then offers else []

/-- The allow-listed methods of a value, and those of its members that have an allow-list. -/
def offeredMethods (i : Interpreter) (h : Host σ) (s : σ) (root : Text) (v : Value) :
    Except Failure (List Offer) := do
  let own ← ((i.allowed.find? root).getD []).mapM fun name =>
    offersIf h s v name [.call ⟨root, [name], by simp⟩]
  let deeper ← (i.allowed.filter fun entry => entry.1 != root).mapM fun (scope, names) =>
    offersIf h s v scope (names.map fun name => .call ⟨root, [scope, name], by simp⟩)
  return own.flatten ++ deeper.flatten

/-- What is offered for a value of the context. A listed class is offered for construction, and a
class that is not listed is not offered. -/
def offersAt (i : Interpreter) (h : Host σ) (s : σ) (root : Text) (v : Value) :
    Except Failure (List Offer) :=
  if i.constructors.contains root then .ok [.construct root]
  else if h.isClass s v then .ok []
  else
    (i.offeredMethods h s root v).map fun methods =>
      (if h.isCallable s v then .call ⟨root, [], by simp⟩ else .root root) :: methods

def offers (i : Interpreter) (h : Host σ) (s : σ) : Except Failure (List Offer) :=
  (i.context.mapM fun (root, v) => i.offersAt h s root v).map List.flatten

def insertOrdered (t : Text) : List Text → List Text
  | [] => [t]
  | s :: rest =>
    if t = s then s :: rest
    else if t.precedes s then t :: s :: rest
    else s :: insertOrdered t rest

def completionsOn (i : Interpreter) (h : Host σ) (s : σ) : Except Failure (List Text) :=
  (i.offers h s).map fun offers => (offers.map Offer.text).foldr insertOrdered []

/-- The completions in a world, where looking up a member never fails. -/
def completions (i : Interpreter) (w : World) : List Text :=
  match i.completionsOn World.host w with
  | .ok options => options
  | .error _ => []

def complete (i : Interpreter) (w : World) (start : Text) : List Text :=
  (i.completions w).filter fun option => start.isPrefixOf option

end Interpreter

end GuardedConsole
