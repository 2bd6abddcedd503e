import GuardedConsole.Proofs.Calendar.Failing
import GuardedConsole.Proofs.Session.Dispatch

/-!
# Commands that fail

A command that fails leaves the events, the view, the time zone and the date of the calendar as they
were. It leaves the history as it was too, except if it calls a method that changes events with the
right number of arguments: such a method has kept a snapshot of the events by then, and has given up
what could be redone. `failed_step_keeps_calendar` is that statement.
-/

namespace GuardedConsole

open Time Calendar

variable {w : World} {now : Moment} {t : Text} {target : Value} {arguments : List Value}
  {f : Failure}

namespace Outcome

variable {α : Type}

theorem failed_of_ofExecution {outcome : Outcome α} (failed : outcome.ofExecution = .failed f) :
    ∃ cause, outcome = .failed cause := by
  cases outcome with
  | returned a => cases failed
  | failed cause => exact ⟨cause, rfl⟩
  | unfinished => cases failed

theorem ofExcept_eq_failed {result : Except Failure α} (failed : ofExcept result = .failed f) :
    result = .error f := by
  cases result with
  | error cause =>
    cases failed
    rfl
  | ok a => cases failed

end Outcome

namespace World

/-- A call of anything but a method of the calendar leaves the calendar as it was if it fails. -/
theorem call_failed (plain : ∀ v ∈ arguments, v.IsData)
    (other : ∀ name m, method? name = some m → target ≠ .method .calendar name)
    (failed : (w.call target arguments).1 = .failed f) :
    Kept w.calendar (w.call target arguments).2.calendar ∧
      (w.call target arguments).2.calendar.history = w.calendar.history := by
  rcases w.call_elsewhere arguments other with same | ⟨_, numbered⟩ | ⟨m, called⟩ | ⟨m, called⟩
  · rw [same]
    exact ⟨.refl _, rfl⟩
  · rw [numbered]
    exact ⟨⟨rfl, rfl, rfl, rfl⟩, rfl⟩
  · rw [called] at failed ⊢
    exact callStore_error m plain (Outcome.ofExcept_eq_failed failed)
  · rw [called] at failed ⊢
    rw [changed, callHistory_error m (Outcome.ofExcept_eq_failed failed)]
    exact ⟨.refl _, rfl⟩

end World

namespace Session

/-- The text calls a method of the calendar that changes events, and passes as many arguments as it
takes. -/
def ChangesEvents (now : Moment) (t : Text) : Prop :=
  ∃ m arguments, Calls now t m arguments ∧ m.changesEvents = true ∧
    arguments.length = m.form.2.length

theorem calls_unique {m m' : Method} {passed : List Value} (calls : Calls now t m arguments)
    (other : Calls now t m' passed) : m' = m ∧ passed = arguments := by
  have same := calls.symm.trans other
  simp only [Except.ok.injEq, Option.some.injEq, Command.call.injEq, methodPath, Path.mk.injEq,
    List.cons.injEq, and_true, true_and] at same
  have found := method?_form m'
  rw [← same.1, method?_form m] at found
  exact ⟨(Option.some.inj found).symm, same.2.symm⟩

theorem changesEvents_iff {m : Method} (calls : Calls now t m arguments) :
    ChangesEvents now t ↔ m.changesEvents = true ∧ arguments.length = m.form.2.length := by
  constructor
  · rintro ⟨m', passed, other, changes, enough⟩
    obtain ⟨rfl, rfl⟩ := calls_unique calls other
    exact ⟨changes, enough⟩
  · rintro ⟨changes, enough⟩
    exact ⟨m, arguments, calls, changes, enough⟩

/-- A text that does not call a method of the calendar leaves the calendar as it was if it fails. -/
theorem step_failed_of_not_calls (sound : w.calendar.Sound)
    (calls : ¬∃ m arguments, Calls now t m arguments) (failed : (step w now t).1 = .failed f) :
    Kept w.calendar (step w now t).2.calendar ∧
      (step w now t).2.calendar.history = w.calendar.history := by
  rcases step_of_not_calls sound calls with same | ⟨target, arguments, plain, other, stepped⟩
  · rw [same]
    exact ⟨.refl _, rfl⟩
  · rw [stepped] at failed ⊢
    obtain ⟨cause, failed⟩ := Outcome.failed_of_ofExecution failed
    exact World.call_failed (w := { w with now := now }) plain other failed

theorem step_failed (sound : w.calendar.Sound) (failed : (step w now t).1 = .failed f) :
    Kept w.calendar (step w now t).2.calendar ∧
      (ChangesEvents now t →
        (step w now t).2.calendar.history = w.calendar.history.snapshot w.calendar.store.events) ∧
      (¬ChangesEvents now t → (step w now t).2.calendar.history = w.calendar.history) := by
  by_cases calling : ∃ m arguments, Calls now t m arguments
  · obtain ⟨m, arguments, calls⟩ := calling
    have plain : ∀ v ∈ arguments, v.IsData :=
      Command.isData_of_parse (Interpreter.parse_eq_ok_iff.mp calls).2
    rw [step_of_calls calls] at failed ⊢
    obtain ⟨cause, failed⟩ := Outcome.failed_of_ofExecution failed
    obtain ⟨kept, left⟩ := call_error m plain (Outcome.ofExcept_eq_failed failed)
    rw [changesEvents_iff calls]
    refine ⟨kept, ?_, ?_⟩
    · rintro ⟨changes, enough⟩
      rw [left, if_pos enough, historyAfter, if_pos changes]
    · intro changesNot
      rw [left]
      split
      · rename_i enough
        rw [historyAfter, if_neg fun changes => changesNot ⟨changes, enough⟩]
      · rfl
  · have changesNot : ¬ChangesEvents now t :=
      fun ⟨m, arguments, calls, _⟩ => calling ⟨m, arguments, calls⟩
    obtain ⟨kept, same⟩ := step_failed_of_not_calls sound calling failed
    exact ⟨kept, fun changes => absurd changes changesNot, fun _ => same⟩

/-- In every session a command that fails leaves the events, the view, the time zone and the date as
they were. The history stays too, except that a call which reaches a method that changes events
keeps a snapshot although it fails, and there is nothing to redo after it. -/
theorem failed_step_keeps_calendar (start : Moment) (commands : List (Moment × Text))
    (now : Moment) (t : Text) (f : Failure)
    (failed : (step (reached start commands) now t).1 = .failed f) :
    let before := (reached start commands).calendar
    let after := (step (reached start commands) now t).2.calendar
    Kept before after ∧
      (ChangesEvents now t → after.history = before.history.snapshot before.store.events) ∧
      (¬ChangesEvents now t → after.history = before.history) :=
  step_failed (sound_run (sound_fresh start) commands) failed

/-- An event is added and taken back. -/
def addedAndUndone : List (Moment × Text) :=
  [(noon, "calendar.add_event(\x7bid: \"a\", start: \"2024-05-02\"\x7d)".toText),
    (noon, "calendar.state.undo()".toText)]

/-- Asks for an event that ends before it starts. -/
def backwards : Text :=
  "calendar.add_event(\x7bstart: \"2024-05-02\", end: \"2024-05-01\"\x7d)".toText

/-- The request is refused. What could be redone is lost, and there is a state to undo to. -/
theorem backwards_refused :
    (step (reached noon addedAndUndone) noon backwards).1.hasReturned? = some false ∧
      (reached noon addedAndUndone).calendar.history.past = [] ∧
      (reached noon addedAndUndone).calendar.history.future.length = 1 ∧
      (step (reached noon addedAndUndone) noon backwards).2.calendar.history.past = [[]] ∧
      (step (reached noon addedAndUndone) noon backwards).2.calendar.history.future = [] := by
  decide +kernel

theorem failed_step_keeps_calendar_backwards :
    ∃ f, (step (reached noon addedAndUndone) noon backwards).1 = .failed f ∧
      Kept (reached noon addedAndUndone).calendar
        (step (reached noon addedAndUndone) noon backwards).2.calendar := by
  obtain ⟨f, failed⟩ := Answer.exists_failed backwards_refused.1
  exact ⟨f, failed, (failed_step_keeps_calendar noon addedAndUndone noon backwards f failed).1⟩

/-- A command that fails does not always leave the history as it was. -/
theorem failed_step_changes_history :
    ¬∀ start commands now t f, (step (reached start commands) now t).1 = .failed f →
      (step (reached start commands) now t).2.calendar.history =
        (reached start commands).calendar.history := by
  intro same
  obtain ⟨refused, past, _, past', _⟩ := backwards_refused
  obtain ⟨f, failed⟩ := Answer.exists_failed refused
  rw [same noon addedAndUndone noon backwards f failed, past] at past'
  cases past'

end Session

end GuardedConsole
