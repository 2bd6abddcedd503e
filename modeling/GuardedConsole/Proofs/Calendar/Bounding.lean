import Mathlib.Logic.Relation
import GuardedConsole.Proofs.Calendar.Becoming
import GuardedConsole.Proofs.Calendar.History

/-!
# How many states a history holds

Whatever comes of a calendar whose history keeps to a positive limit keeps to it as well
(`limited_of_comes`). A limit of zero cuts nothing, so that the history can get as long as one likes
(`exists_comes_longer`).
-/

namespace GuardedConsole

open Time

namespace Calendar

variable {c c' : Calendar} {now : Moment} {arguments : List Value} {n : Nat}

/-- The calendar becomes another one by any number of commands, whatever they call. -/
def Comes : Calendar → Calendar → Prop :=
  Relation.ReflTransGen fun c c' => ∃ now arguments, Becomes now arguments c c'

theorem limited_of_becomes (limited : c.history.Limited n) (positive : 0 < n)
    (becomes : Becomes now arguments c c') : c'.history.Limited n := by
  cases becomes with
  | same => exact limited
  | method m =>
    rw [history_run, historyAfter]
    split
    · exact limited.snapshot positive _
    · exact limited
  | store m =>
    rw [history_runStore]
    exact limited
  | history m => exact limited.run positive m _
  | number => exact limited

theorem limited_of_comes (limited : c.history.Limited n) (positive : 0 < n) (comes : Comes c c') :
    c'.history.Limited n := by
  induction comes with
  | refl => exact limited
  | tail _ becomes kept =>
    obtain ⟨now, arguments, becomes⟩ := becomes
    exact limited_of_becomes kept positive becomes

/-- With a limit of zero every snapshot adds a state, and none is dropped. -/
theorem exists_comes_longer (zero : c.history.limit = 0) (more : Nat) :
    ∃ c', Comes c c' ∧ c'.history.limit = 0 ∧
      c'.history.past.length = c.history.past.length + more := by
  induction more with
  | zero => exact ⟨c, .refl, zero, rfl⟩
  | succ more ih =>
    obtain ⟨c', comes, zero', longer⟩ := ih
    refine ⟨_, comes.tail ⟨⟨0, none, by decide⟩, [], .history .snapshot⟩, zero', ?_⟩
    have past : (c'.runHistory .snapshot).2.history.past = c'.store.events :: c'.history.past := by
      simp [runHistory, HistoryMethod.run, UndoHistory.snapshot, UndoHistory.kept, zero']
    rw [past, List.length_cons, longer]
    rfl

end Calendar

end GuardedConsole
