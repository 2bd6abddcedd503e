import GuardedConsole.Interpreter.Basic
import GuardedConsole.Proofs.Calendar.Becoming
import GuardedConsole.Proofs.Interpreter.Permission

/-!
# Sessions

A session executes texts on the calendar one after another, each at a moment of its own. What one
command makes of the calendar is said by `step_becomes`, and `run_keeps` shows that what all this
keeps holds after every session; `session_keeps_calendar_sound` is the case of good order.
-/

namespace GuardedConsole

open Time

namespace Answer

variable {answer : Answer}

/-- Has the call returned? It has not if it failed, and there is nothing to say if it never ends. -/
def hasReturned? : Answer → Option Bool
  | .returned _ => some true
  | .failed _ => some false
  | .unfinished => none

theorem exists_returned (answered : answer.hasReturned? = some true) :
    ∃ v, answer = .returned v := by
  cases answer with
  | returned v => exact ⟨v, rfl⟩
  | failed f => cases answered
  | unfinished => cases answered

theorem exists_failed (answered : answer.hasReturned? = some false) :
    ∃ f, answer = .failed f := by
  cases answer with
  | returned v => cases answered
  | failed f => exact ⟨f, rfl⟩
  | unfinished => cases answered

end Answer

namespace Session

/-- The answer to a text that is executed at a moment, and the world after it. -/
def step (w : World) (now : Moment) (t : Text) : Answer × World :=
  Interpreter.forCalendar.execute { w with now := now } t

/-- The answers to texts that are executed one after another, and the world after the last. -/
def run (w : World) : List (Moment × Text) → List Answer × World
  | [] => ([], w)
  | (now, t) :: rest =>
    let (answer, w) := step w now t
    let (answers, w) := run w rest
    (answer :: answers, w)

/-- The world after a session that begins with a fresh calendar. -/
def reached (start : Moment) (commands : List (Moment × Text)) : World :=
  (run (World.fresh start) commands).2

/-- Noon on the first of May 2024. -/
def noon : Moment := ⟨63850161600000000, none, by decide⟩

variable {w : World} {now : Moment} {t : Text}

theorem run_cons (w : World) (now : Moment) (t : Text) (rest : List (Moment × Text)) :
    run w ((now, t) :: rest) =
      ((step w now t).1 :: (run (step w now t).2 rest).1, (run (step w now t).2 rest).2) := rfl

theorem run_append (w : World) (first second : List (Moment × Text)) :
    run w (first ++ second) =
      ((run w first).1 ++ (run (run w first).2 second).1, (run (run w first).2 second).2) := by
  induction first generalizing w with
  | nil => rfl
  | cons command rest ih =>
    obtain ⟨now, t⟩ := command
    rw [List.cons_append, run_cons, run_cons, ih]
    rfl

end Session

/-! ### What one command does -/

namespace World

open Calendar

theorem becomes_callMethod (w : World) (owner : Value) (name : Text) (arguments : List Value) :
    Becomes w.now arguments w.calendar (w.callMethod owner name arguments).2.calendar := by
  unfold callMethod
  cases owner with
  | calendar =>
    dsimp only
    split
    · exact (Becomes.method _).checked _ _
    · exact .same
  | eventStore =>
    dsimp only
    split
    · exact (Becomes.store _).checked _ _
    · exact .same
  | undoHistory =>
    dsimp only
    split
    · exact (Becomes.history _).checked _ _
    · exact .same
  | event | eventClass | presenter =>
    dsimp only
    split <;> exact .same
  | _ => exact .same

theorem becomes_construct (w : World) (arguments : List Value) :
    Becomes w.now arguments w.calendar (w.construct arguments).2.calendar := by
  unfold construct
  split
  · exact .same
  · exact .number (Event.ofData_number_le _ _ _ _)

theorem becomes_call (w : World) (target : Value) (arguments : List Value) :
    Becomes w.now arguments w.calendar (w.call target arguments).2.calendar := by
  cases target with
  | eventClass => exact w.becomes_construct arguments
  | method owner name => exact w.becomes_callMethod owner name arguments
  | _ => exact .same

end World

/-- What a text has called is called with plain data. -/
theorem Interpreter.Permitted.isData {σ : Type} {i : Interpreter} {h : Host σ} {s : σ} {t : Text}
    {c : Invocation} (permitted : i.Permitted h s t c) : ∀ v ∈ c.arguments, v.IsData := by
  cases permitted with
  | call admitted _ _ _ _ => exact Command.isData_of_parse admitted.2
  | construct admitted _ _ _ => exact Command.isData_of_parse admitted.2

namespace Session

open Interpreter Calendar

variable {w : World} {now : Moment} {t : Text}

/-- The text reads as a command that passes the value. -/
def Passes (now : Moment) (t : Text) (v : Value) : Prop :=
  ∃ c, parse now t = .ok (some c) ∧ v ∈ c.arguments

theorem Passes.isData {v : Value} (passes : Passes now t v) : v.IsData := by
  obtain ⟨c, parsed, passed⟩ := passes
  exact Command.isData_of_parse (parse_eq_ok_iff.mp parsed).2 v passed

/-- What a text has called is called with the values that it passes. -/
theorem passes_of_permitted {c : Invocation}
    (permitted : forCalendar.Permitted World.host w t c) : ∀ v ∈ c.arguments, Passes w.now t v := by
  intro v passed
  cases permitted with
  | call admitted _ _ _ _ => exact ⟨_, parse_eq_ok_iff.mpr admitted, passed⟩
  | construct admitted _ _ _ => exact ⟨_, parse_eq_ok_iff.mpr admitted, passed⟩

theorem step_becomes (w : World) (now : Moment) (t : Text) :
    ∃ arguments, (∀ v ∈ arguments, Passes now t v) ∧
      Becomes now arguments w.calendar (step w now t).2.calendar := by
  unfold step execute
  cases planned : forCalendar.plan World.host { w with now := now } t with
  | error f =>
    rw [executeOn_of_plan_error planned]
    exact ⟨[], List.forall_mem_nil _, .same⟩
  | ok action =>
    cases action with
    | give v =>
      rw [executeOn_of_plan_give planned]
      exact ⟨[], List.forall_mem_nil _, .same⟩
    | invoke target arguments =>
      rw [executeOn_of_plan_invoke planned]
      exact ⟨arguments, passes_of_permitted (plan_invoke_iff.mp planned),
        World.becomes_call { w with now := now } target arguments⟩

/-- What everything that a command can do to a calendar keeps holds after all commands of a session,
if the values that are passed are all of a kind. -/
theorem run_keeps {P : Calendar → Prop} (Given : Value → Prop)
    (kept : ∀ {c c' now arguments}, P c → (∀ v ∈ arguments, v.IsData ∧ Given v) →
      c.Becomes now arguments c' → P c')
    {commands : List (Moment × Text)} (holds : P w.calendar)
    (given : ∀ command ∈ commands, ∀ v, Passes command.1 command.2 v → Given v) :
    P (run w commands).2.calendar := by
  induction commands generalizing w with
  | nil => exact holds
  | cons command rest ih =>
    obtain ⟨first, others⟩ := List.forall_mem_cons.mp given
    obtain ⟨arguments, passed, becomes⟩ := step_becomes w command.1 command.2
    have plain : ∀ v ∈ arguments, v.IsData ∧ Given v :=
      fun v listed => ⟨(passed v listed).isData, first v (passed v listed)⟩
    exact ih (kept holds plain becomes) others

/-! ### Soundness -/

theorem sound_run (sound : w.calendar.Sound) (commands : List (Moment × Text)) :
    (run w commands).2.calendar.Sound :=
  run_keeps (fun _ => True)
    (fun sound plain becomes => sound.becomes (fun v listed => (plain v listed).1) becomes) sound
    fun _ _ _ _ => trivial

/-- After every session the events stand under their own ids and are well timed, and so are those of
every state that can be undone or redone; there are at most fifty such states, the view is one of the
four, and the time zone is a text. -/
theorem session_keeps_calendar_sound (start : Moment) (commands : List (Moment × Text)) :
    (reached start commands).calendar.Sound :=
  sound_run (Calendar.sound_fresh start) commands

end Session

end GuardedConsole
