import GuardedConsole.Interpreter.Basic

/-!
# The calls of an execution

`Host.recording` is a host that also lists the calls it carries out, and `Interpreter.calls` are
those that executing a text makes. `executeOn_recording` shows that the list changes nothing else,
and `calls_of_plan` that the plan decides it.
-/

namespace GuardedConsole

variable {σ : Type} {i : Interpreter} {h : Host σ} {s : σ} {t : Text}

/-- A call: what is called, and with which arguments. -/
structure Invocation where
  target : Value
  arguments : List Value

/-- The host with a list of the calls that it has carried out. -/
abbrev Host.recording (h : Host σ) : Host (σ × List Invocation) where
  now s := h.now s.1
  member? s := h.member? s.1
  isCallable s := h.isCallable s.1
  isClass s := h.isClass s.1
  call s target arguments :=
    let (answer, next) := h.call s.1 target arguments
    (answer, next, s.2 ++ [⟨target, arguments⟩])
  nameOf s := h.nameOf s.1
  look s := h.look s.1
  room s := h.room s.1

/-- The calls that an action consists of. -/
def Action.calls : Action → List Invocation
  | .give _ => []
  | .invoke target arguments => [⟨target, arguments⟩]

namespace Interpreter

/-- The calls that executing a text makes, in order. -/
def calls (i : Interpreter) (h : Host σ) (s : σ) (t : Text) : List Invocation :=
  (i.executeOn h.recording (s, []) t).2.2

theorem reach_recording (record : List Invocation) (owner : Text) (v : Value) (names : List Text) :
    reach h.recording (s, record) owner v names = reach h s owner v names := by
  induction names generalizing owner v with
  | nil => rfl
  | cons name names ih =>
    have lookup : h.recording.member? (s, record) name v = h.member? s name v := rfl
    simp only [reach, lookup, ih]

/-- Planning does not see the list of calls. -/
theorem plan_recording (record : List Invocation) :
    i.plan h.recording (s, record) t = i.plan h s t := by
  have follow : ∀ path, i.follow h.recording (s, record) path = i.follow h s path := by
    intro path
    simp only [Interpreter.follow, reach_recording]
  have command : ∀ c, i.planCommand h.recording (s, record) c = i.planCommand h s c := by
    intro c
    cases c with
    | property path => rw [planCommand, planCommand, follow]
    | call path arguments =>
      rw [planCommand, planCommand, planCall, planCall, follow]
      rfl
    | construct name arguments => rfl
  have clock : h.recording.now (s, record) = h.now s := rfl
  simp only [plan, clock, command]

/-! ### What the plan decides -/

theorem executeOn_of_plan_error {f : Failure} (planned : i.plan h s t = .error f) :
    i.executeOn h s t = (.failed (.execution f), s) := by
  rw [executeOn, planned]

theorem executeOn_of_plan_give {v : Value} (planned : i.plan h s t = .ok (.give v)) :
    i.executeOn h s t = (.returned v, s) := by
  rw [executeOn, planned]
  rfl

theorem executeOn_of_plan_invoke {target : Value} {arguments : List Value}
    (planned : i.plan h s t = .ok (.invoke target arguments)) :
    i.executeOn h s t =
      ((h.call s target arguments).1.ofExecution, (h.call s target arguments).2) := by
  rw [executeOn, planned]
  rfl

theorem calls_of_plan {action : Action} (planned : i.plan h s t = .ok action) :
    i.calls h s t = action.calls := by
  have recorded := (plan_recording []).trans planned
  cases action with
  | give v => rw [calls, executeOn_of_plan_give recorded]; rfl
  | invoke target arguments => rw [calls, executeOn_of_plan_invoke recorded]; rfl

theorem calls_of_plan_error {f : Failure} (planned : i.plan h s t = .error f) :
    i.calls h s t = [] := by
  rw [calls, executeOn_of_plan_error ((plan_recording []).trans planned)]

/-- A host that lists the calls answers as the host itself does. -/
theorem executeOn_recording :
    i.executeOn h.recording (s, []) t =
      ((i.executeOn h s t).1, (i.executeOn h s t).2, i.calls h s t) := by
  cases planned : i.plan h s t with
  | error f =>
    rw [calls_of_plan_error planned, executeOn_of_plan_error planned,
      executeOn_of_plan_error ((plan_recording []).trans planned)]
  | ok action =>
    rw [calls_of_plan planned]
    have recorded := (plan_recording []).trans planned
    cases action with
    | give v => rw [executeOn_of_plan_give planned, executeOn_of_plan_give recorded]; rfl
    | invoke target arguments =>
      rw [executeOn_of_plan_invoke planned, executeOn_of_plan_invoke recorded]; rfl

end Interpreter

end GuardedConsole
