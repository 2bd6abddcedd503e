/-!
# Undo and redo

A history keeps states to go back to and states to come forward to, the newest first. `undo` and
`redo` exchange the current state for one of them.
-/

namespace GuardedConsole

/-- States before and after the current one, the newest first, and the number of states to keep. -/
structure UndoHistory (σ : Type) where
  past : List σ := []
  future : List σ := []
  limit : Int := 50

namespace UndoHistory

variable {σ : Type}

/-- What a limit leaves of states that are listed newest first: the newest ones if it is positive,
all of them if it is zero, and all but the oldest ones if it is negative. -/
def kept (limit : Int) (states : List σ) : List σ :=
  if 0 < limit then states.take limit.toNat
  else states.take (states.length - limit.natAbs)

/-- Keeps the current state to go back to. There is nothing to come forward to then. -/
def snapshot (h : UndoHistory σ) (current : σ) : UndoHistory σ :=
  { h with past := kept h.limit (current :: h.past), future := [] }

def undo (h : UndoHistory σ) (current : σ) : Option (σ × UndoHistory σ) :=
  match h.past with
  | [] => none
  | state :: past => some (state, { h with past := past, future := current :: h.future })

def redo (h : UndoHistory σ) (current : σ) : Option (σ × UndoHistory σ) :=
  match h.future with
  | [] => none
  | state :: future => some (state, { h with past := current :: h.past, future := future })

end UndoHistory

end GuardedConsole
