import GuardedConsole.Report.Reporter

/-!
# Runs of a reporter

A run is a list of actions that are done with a reporter one after another. Listening gives a remover,
which is known by its place among all that were given; what it takes back is the first registration of
a listener with the name of its own. Listeners get a record one after another, up to the first one about
which no complaint can be printed (`deliver_of_printable`, `deliver_eq_error_iff`).
-/

namespace GuardedConsole.Reporter

variable {κ : Type}

/-! ### Handing over -/

section Handing

variable {entry : Record κ} {l : Listener} {listeners : List Listener} {f : Failure}

theorem deliver_cons_of_printable (printable : (l.receive entry).print = .ok ()) :
    deliver entry (l :: listeners) = (deliver entry listeners).map (l.receive entry :: ·) := by
  unfold deliver
  rw [List.mapM_cons, printable]
  rfl

theorem deliver_cons_of_error (failed : (l.receive entry).print = .error f) :
    deliver entry (l :: listeners) = .error f := by
  unfold deliver
  rw [List.mapM_cons, failed]
  rfl

theorem deliver_of_printable (printable : ∀ l ∈ listeners, (l.receive entry).print = .ok ()) :
    deliver entry listeners = .ok (listeners.map fun l => l.receive entry) := by
  induction listeners with
  | nil => rfl
  | cons l listeners ih =>
    obtain ⟨first, others⟩ := List.forall_mem_cons.mp printable
    rw [deliver_cons_of_printable first, ih others]
    rfl

theorem deliver_of_error {before after : List Listener}
    (printable : ∀ l ∈ before, (l.receive entry).print = .ok ())
    (failed : (l.receive entry).print = .error f) :
    deliver entry (before ++ l :: after) = .error f := by
  induction before with
  | nil => exact deliver_cons_of_error failed
  | cons l' before ih =>
    obtain ⟨first, others⟩ := List.forall_mem_cons.mp printable
    rw [List.cons_append, deliver_cons_of_printable first, ih others]
    rfl

/-- Handing over fails with the first complaint that cannot be printed. -/
theorem deliver_eq_error_iff :
    deliver entry listeners = .error f ↔
      ∃ before l after, listeners = before ++ l :: after ∧
        (∀ l' ∈ before, (l'.receive entry).print = .ok ()) ∧ (l.receive entry).print = .error f := by
  constructor
  · intro failed
    induction listeners with
    | nil => cases failed
    | cons l listeners ih =>
      cases first : (l.receive entry).print with
      | error f' =>
        rw [deliver_cons_of_error first] at failed
        cases failed
        exact ⟨[], l, listeners, rfl, List.forall_mem_nil _, first⟩
      | ok _ =>
        rw [deliver_cons_of_printable first] at failed
        obtain ⟨before, l', after, rfl, printable, failed⟩ := ih (Failure.of_map failed)
        exact ⟨l :: before, l', after, rfl, List.forall_mem_cons.mpr ⟨first, printable⟩, failed⟩
  · rintro ⟨before, l, after, rfl, printable, failed⟩
    exact deliver_of_error printable failed

end Handing

/-! ### Steps -/

/-- What can be done with a reporter. -/
inductive Action (κ : Type) where
  | record (e : Report κ) (context : Table Text)
  | clear
  | listen (name : Text)
  /-- Calls the remover at a place. -/
  | remove (place : Nat)

/-- A registration of a listener, and whether its own remover has been called. -/
structure Registration where
  listener : Listener
  withdrawn : Bool := false

def Registration.withdraw (r : Registration) : Registration :=
  { r with withdrawn := true }

/-- A reporter with all registrations that were made with it, oldest first. -/
structure InUse (κ : Type) where
  reporter : Reporter κ
  registrations : List Registration := []

/-- The listener of a name, where `breaks` says which listeners break and with what message. -/
def called (breaks : Text → Option Text) (name : Text) : Listener :=
  { name, breaks := breaks name }

namespace InUse

def step (breaks : Text → Option Text) (u : InUse κ) : Action κ → InUse κ
  | .record e context => { u with reporter := (u.reporter.recordNamed e context).2 }
  | .clear => { u with reporter := u.reporter.clear }
  | .listen name =>
    { reporter := u.reporter.listen (called breaks name)
      registrations := u.registrations ++ [{ listener := called breaks name }] }
  | .remove place =>
    match u.registrations[place]? with
    | some r =>
      { reporter := u.reporter.unlisten r.listener.name
        registrations := u.registrations.modify place Registration.withdraw }
    | none => u

def run (breaks : Text → Option Text) (u : InUse κ) (actions : List (Action κ)) : InUse κ :=
  actions.foldl (step breaks) u

end InUse

end GuardedConsole.Reporter
