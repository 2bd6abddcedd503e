import GuardedConsole.Failure

/-!
# Outcomes and effects

What is executed returns something, fails, or never ends. This is its `Outcome`. An `Effect` works on a
state and has an outcome; whatever that is, there is a state afterwards.
-/

namespace GuardedConsole

/-- How something ends, if it ends. -/
inductive Outcome (α : Type) where
  | returned (a : α)
  | failed (f : Failure)
  | unfinished
deriving DecidableEq

namespace Outcome

variable {α : Type}

def ofExcept : Except Failure α → Outcome α
  | .ok a => .returned a
  | .error f => .failed f

/-- The result for someone who does not wait for what never ends. -/
def toExcept : Outcome α → Except Failure α
  | .returned a => .ok a
  | .failed f => .error f
  | .unfinished => .error (.fault .timedOut "Command does not end".toText)

instance : Coe (Outcome α) (Except Failure α) := ⟨toExcept⟩

end Outcome

/-- Something that works on a state. -/
def Effect (σ α : Type) :=
  σ → Outcome α × σ

namespace Effect

variable {σ α β : Type}

protected def pure (a : α) : Effect σ α := fun s =>
  (.returned a, s)

/-- One effect after another. The second one is there only if the first one returns. -/
protected def bind (e : Effect σ α) (next : α → Effect σ β) : Effect σ β := fun s =>
  match e s with
  | (.returned a, s) => next a s
  | (.failed f, s) => (.failed f, s)
  | (.unfinished, s) => (.unfinished, s)

instance : Monad (Effect σ) where
  pure := Effect.pure
  bind := Effect.bind

/-- Takes something from the state, which stays as it is. -/
def read (look : σ → Except Failure α) : Effect σ α := fun s =>
  (.ofExcept (look s), s)

end Effect

end GuardedConsole
