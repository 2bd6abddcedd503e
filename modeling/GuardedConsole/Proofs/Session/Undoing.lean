import GuardedConsole.Proofs.Calendar.History
import GuardedConsole.Proofs.Session.Dispatch

/-!
# Undoing and redoing in a session

As many redos as undos, or undos as redos, bring a session back to the calendar that it had, as long
as there was enough to undo or redo; and one undo brings the events back that were there before a
command changed them. `undo_and_redo_are_inverse` says so of every session.
-/

namespace GuardedConsole.Session

open Time Calendar

variable {w : World} {now later : Moment} {t u : Text} {m : Method} {back : HistoryMethod}
  {arguments : List Value}

/-- All commands call a method of the history. -/
def AllCall (m : HistoryMethod) (commands : List (Moment × Text)) : Prop :=
  ∀ command ∈ commands, CallsHistory command.1 command.2 m

/-- The commands one after another answer yes, and leave a calendar. -/
def SucceedTo (w : World) (commands : List (Moment × Text)) (c : Calendar) : Prop :=
  (run w commands).1 = List.replicate commands.length (.returned (.bool true)) ∧
    (run w commands).2.calendar = c

theorem succeedTo_nil (w : World) : SucceedTo w [] w.calendar :=
  ⟨rfl, rfl⟩

theorem succeedTo_cons {rest : List (Moment × Text)} {c : Calendar}
    (first : (step w now t).1 = .returned (.bool true))
    (others : SucceedTo (step w now t).2 rest c) : SucceedTo w ((now, t) :: rest) c := by
  obtain ⟨answers, after⟩ := others
  refine ⟨?_, after⟩
  rw [run_cons, first, answers]
  rfl

theorem succeedTo_append {first second : List (Moment × Text)} {c c' : Calendar}
    (here : SucceedTo w first c) (there : SucceedTo (run w first).2 second c') :
    SucceedTo w (first ++ second) c' := by
  rw [SucceedTo, run_append, here.1, there.1, List.length_append, List.replicate_add]
  exact ⟨rfl, there.2⟩

/-- A text that calls a method of the history which answers yes. -/
theorem step_yes {method : HistoryMethod} {c : Calendar} (calls : CallsHistory now t method)
    (listed : method ≠ .snapshot) (yes : w.calendar.runHistory method = (.ok (.bool true), c)) :
    (step w now t).1 = .returned (.bool true) ∧ (step w now t).2.calendar = c := by
  rw [step_of_callsHistory calls listed, yes]
  exact ⟨rfl, rfl⟩

theorem succeedTo_single {method : HistoryMethod} {c : Calendar} (calls : CallsHistory now t method)
    (listed : method ≠ .snapshot) (yes : w.calendar.runHistory method = (.ok (.bool true), c)) :
    SucceedTo w [(now, t)] c := by
  obtain ⟨answer, after⟩ := step_yes calls listed yes
  exact succeedTo_cons answer (after ▸ succeedTo_nil _)

/-- Going back as often as there is something to go back to, and then as often the other way, leaves
the calendar as it was. -/
theorem there_and_back {method : HistoryMethod} {first second : List (Moment × Text)}
    (moves : method.opposite ≠ method) (there : AllCall method first)
    (back : AllCall method.opposite second) (same : second.length = first.length)
    (enough : first.length ≤ w.calendar.reserve method) :
    SucceedTo w (first ++ second) w.calendar := by
  have listed : method ≠ .snapshot ∧ method.opposite ≠ .snapshot := by
    cases method <;> simp [HistoryMethod.opposite] at moves ⊢
  induction first generalizing w second with
  | nil =>
    rw [List.eq_nil_of_length_eq_zero same]
    exact succeedTo_nil w
  | cons command rest ih =>
    obtain ⟨now, t⟩ := command
    obtain ⟨calls, others⟩ := List.forall_mem_cons.mp there
    -- the first command is taken back by the last one
    obtain rfl | ⟨inner, ⟨later, u⟩, rfl⟩ := second.eq_nil_or_concat'
    · cases same
    obtain ⟨innerBack, last⟩ := List.forall_mem_append.mp back
    have returns : CallsHistory later u method.opposite := last (later, u) List.mem_cons_self
    obtain ⟨n, available⟩ : ∃ n, w.calendar.reserve method = n + 1 :=
      ⟨w.calendar.reserve method - 1, by simp only [List.length_cons] at enough; omega⟩
    obtain ⟨yes, left, opposite⟩ := w.calendar.runHistory_opposite available
    obtain ⟨answer, after⟩ := step_yes (w := w) calls listed.1 (Prod.ext yes rfl)
    have middle : SucceedTo (step w now t).2 (rest ++ inner) (step w now t).2.calendar := by
      refine ih others innerBack ?_ ?_
      · simpa using same
      · rw [after, left]
        simp only [List.length_cons] at enough
        omega
    have final : SucceedTo (run (step w now t).2 (rest ++ inner)).2 [(later, u)] w.calendar := by
      refine succeedTo_single returns listed.2 ?_
      rw [middle.2, after]
      exact opposite
    rw [List.cons_append, ← List.append_assoc]
    exact succeedTo_cons answer (succeedTo_append middle final)

/-- One undo brings the events back that were there before a command changed them. -/
theorem undo_after_change (sound : w.calendar.Sound) {v : Value} (calls : Calls now t m arguments)
    (changes : m.changesEvents = true) (returned : (step w now t).1 = .returned v)
    (undoes : CallsHistory later u .undo) :
    (step (step w now t).2 later u).1 = .returned (.bool true) ∧
      (step (step w now t).2 later u).2.calendar.store.events = w.calendar.store.events := by
  rw [step_of_calls calls] at returned
  have enough : arguments.length = m.form.2.length := by
    by_contra wrong
    obtain ⟨_, refused⟩ :=
      checked_of_length_ne w.calendar "Calendar" (w.calendar.run now m arguments) wrong
    rw [call, refused] at returned
    cases returned
  have after : (step w now t).2.calendar = (w.calendar.run now m arguments).2 := by
    rw [step_of_calls calls, call, checked_of_length_eq w.calendar _ _ enough]
  have room : 0 < w.calendar.history.limit := by
    rw [sound.history.limited]
    decide
  have left : (step w now t).2.calendar.history =
      w.calendar.history.snapshot w.calendar.store.events := by
    rw [after, history_run, historyAfter, if_pos changes]
  obtain ⟨yes, restored⟩ := runHistory_undo_snapshot room left
  obtain ⟨answer, undone⟩ := step_yes undoes (by decide) (Prod.ext yes rfl)
  exact ⟨answer, by rw [undone, restored]⟩

/-- In every session, undoing as often as there is something to undo and then redoing as often
answers yes each time and leaves the calendar as it was, its history included; and so does redoing
first. If a command that changes events has returned, undoing next answers yes and brings back the
events from before the command. -/
theorem undo_and_redo_are_inverse (start : Moment) (commands : List (Moment × Text)) :
    let w := reached start commands
    (∀ undos redos, AllCall .undo undos → AllCall .redo redos → redos.length = undos.length →
      undos.length ≤ w.calendar.history.past.length →
        SucceedTo w (undos ++ redos) w.calendar) ∧
    (∀ redos undos, AllCall .redo redos → AllCall .undo undos → undos.length = redos.length →
      redos.length ≤ w.calendar.history.future.length →
        SucceedTo w (redos ++ undos) w.calendar) ∧
    (∀ now t (m : Method) arguments v later u, Calls now t m arguments →
      m.changesEvents = true → (step w now t).1 = .returned v → CallsHistory later u .undo →
        (step (step w now t).2 later u).1 = .returned (.bool true) ∧
          (step (step w now t).2 later u).2.calendar.store.events = w.calendar.store.events) := by
  have sound : (reached start commands).calendar.Sound := sound_run (sound_fresh start) commands
  refine ⟨?_, ?_, ?_⟩
  · intro undos redos undo redo same enough
    exact there_and_back (by decide) undo redo same enough
  · intro redos undos redo undo same enough
    exact there_and_back (by decide) redo undo same enough
  · intro now t m arguments v later u calls changes returned undoes
    exact undo_after_change sound calls changes returned undoes

/-- The path that a command calls. -/
def calledPath? : Except Failure (Option Command) → Option Path
  | .ok (some (.call path _)) => some path
  | _ => none

theorem exists_calls (called : calledPath? (Interpreter.parse now t) = some (methodPath m)) :
    ∃ arguments, Calls now t m arguments := by
  unfold Calls
  unfold calledPath? at called
  split at called
  · rename_i path arguments parsed
    cases called
    exact ⟨arguments, parsed⟩
  · cases called

def newEvent : Text :=
  "calendar.add_event(\x7btitle: \"Lunch\", start: \"2024-05-01T12:30:00\"\x7d)".toText

/-- The text calls the calendar, leaves one state to undo to, and can be executed again. -/
theorem newEvent_added :
    calledPath? (Interpreter.parse noon newEvent) = some (methodPath .addEvent) ∧
      (reached noon [(noon, newEvent)]).calendar.history.past.length = 1 ∧
      (step (reached noon [(noon, newEvent)]) noon newEvent).1.hasReturned? = some true := by
  decide +kernel

theorem undo_and_redo_new_event :
    let w := reached noon [(noon, newEvent)]
    SucceedTo w ([(noon, historyText .undo)] ++ [(noon, historyText .redo)]) w.calendar ∧
      ∃ arguments v, Calls noon newEvent .addEvent arguments ∧
        (step w noon newEvent).1 = .returned v ∧
        (step (step w noon newEvent).2 noon (historyText .undo)).2.calendar.store.events =
          w.calendar.store.events := by
  have single {m : HistoryMethod} : AllCall m [(noon, historyText m)] :=
    List.forall_mem_singleton.mpr (callsHistory_historyText noon m)
  obtain ⟨called, one, answered⟩ := newEvent_added
  obtain ⟨arguments, calls⟩ := exists_calls called
  obtain ⟨v, returned⟩ := Answer.exists_returned answered
  obtain ⟨inverse, _, after⟩ := undo_and_redo_are_inverse noon [(noon, newEvent)]
  refine ⟨inverse _ _ single single rfl (Nat.le_of_eq one.symm), arguments, v, calls, returned, ?_⟩
  exact (after noon newEvent .addEvent arguments v noon _ calls rfl returned
    (callsHistory_historyText noon .undo)).2

end GuardedConsole.Session
