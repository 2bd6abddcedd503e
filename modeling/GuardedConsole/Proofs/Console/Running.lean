import GuardedConsole.Proofs.Console.Executing
import GuardedConsole.Proofs.Console.History

/-!
# Runs of a console

A run is a list of steps that a person, or the program around the console, takes one after another. A
step that fails leaves the console as `Console.execute` does; reopening that fails leaves the console
that was there. What a step makes of the history is said by `turns_step`, and that it leaves the settings
by `settings_step`.
-/

namespace GuardedConsole.Console

variable {σ : Type}

/-- What can be done with a console. -/
inductive Step (σ : Type) where
  | execute (text source : Text)
  | add (text : Text)
  | previous
  | next
  | complete (start : Text)
  /-- Time passes, and what runs elsewhere changes the objects of the host. -/
  | pass (world : σ)
  /-- Another console is made on the same files. -/
  | reopen (interpreter : Interpreter) (world : σ) (reporter : Reporter)

/-- The texts that a step adds to the history: a command that is blank is not added. -/
def Step.added : Step σ → List Text
  | .execute text _ => if text.trim = [] then [] else [text.trim]
  | .add text => [text.trim]
  | _ => []

/-- The step does not reopen the console. -/
def Step.Stays : Step σ → Prop
  | .reopen _ _ _ => False
  | _ => True

/-! ### Starting -/

section Starting

variable {c : Console σ} {settings : Settings} {i : Interpreter} {w : σ} {files : Files}
  {r : Reporter}

/-- A new console has what it is made with, and a history. -/
theorem exists_history_of_start (started : start settings i w files r = .ok c) :
    ∃ history, c = { settings, interpreter := i, world := w, files, reporter := r, history } := by
  unfold start at started
  dsimp only at started
  generalize StateFile.load settings.historySize _ = loaded at started
  cases loaded with
  | error f => cases started
  | ok history =>
    cases started
    exact ⟨history, rfl⟩

/-- The history of a new console holds the newest of some entries, with the cursor behind them. -/
theorem history_start (started : start settings i w files r = .ok c) :
    ∃ entries, c.history = .ofEntries settings.historySize entries := by
  unfold start StateFile.load at started
  dsimp only at started
  split at started
  · cases started
    refine ⟨[], ?_⟩
    simp [History.ofEntries, History.kept]
  · rename_i content _
    cases read : StateFile.read content with
    | error f => rw [read] at started; cases started
    | ok entries =>
      rw [read] at started
      cases started
      exact ⟨entries, rfl⟩

end Starting

/-! ### Steps -/

variable [Host σ] {c : Console σ} {s : Step σ}

def step (c : Console σ) : Step σ → Console σ
  | .execute text source => (c.execute text source).2
  | .add text => c.remember text
  | .previous => c.previous.2
  | .next => c.next.2
  | .complete _ => c
  | .pass world => { c with world := world }
  | .reopen interpreter world reporter =>
    match { c with interpreter := interpreter, world := world }.reopen reporter with
    | .ok opened => opened
    | .error _ => c

def run (c : Console σ) (steps : List (Step σ)) : Console σ :=
  steps.foldl step c

/-- What holds of a console and is kept by every step holds after a run. -/
theorem run_invariant {P : Console σ → Prop} {steps : List (Step σ)} (begins : P c)
    (keeps : ∀ s ∈ steps, ∀ c, P c → P (c.step s)) : P (c.run steps) := by
  induction steps generalizing c with
  | nil => exact begins
  | cons s steps ih =>
    obtain ⟨first, others⟩ := List.forall_mem_cons.mp keeps
    exact ih (first c begins) others

/-- Whatever a command comes to, it is added to the history if it is not blank, and nothing else is. -/
theorem turns_step (stays : s.Stays) : c.history.Turns s.added (c.step s).history := by
  cases s with
  | execute text source =>
    unfold Step.added step
    dsimp only
    by_cases blank : text.trim = []
    · rw [if_pos blank, execute_blank blank]
      exact .same
    · rw [if_neg blank, history_execute blank]
      exact .add text
  | add text => exact .add text
  | previous => exact .previous
  | next => exact .next
  | complete start => exact .same
  | pass world => exact .same
  | reopen interpreter world reporter => exact stays.elim

theorem settings_step (c : Console σ) (s : Step σ) : (c.step s).settings = c.settings := by
  cases s with
  | execute text source =>
    unfold Console.step
    dsimp only
    by_cases blank : text.trim = []
    · rw [execute_blank blank]
    · have known := executed c blank source
      generalize c.execute text source = answer at known ⊢
      cases known with
      | halted _ _ | unlogged _ _ _ _ => rfl
      | replied _ _ _ => exact settings_save _
  | reopen interpreter world reporter =>
    unfold Console.step
    dsimp only
    split
    · rename_i opened reopened
      obtain ⟨history, rfl⟩ := exists_history_of_start reopened
      rfl
    · rfl
  | add _ | previous | next | complete _ | pass _ => rfl

theorem settings_run (c : Console σ) (steps : List (Step σ)) :
    (c.run steps).settings = c.settings :=
  run_invariant (P := fun d => d.settings = c.settings) rfl fun s _ d kept =>
    (settings_step d s).trans kept

end GuardedConsole.Console
