import Mathlib
import GuardedConsole.Interpreter.Basic
import GuardedConsole.Proofs.Interpreter.Permission

/-!
# Tightening permissions

An interpreter is `Stricter` than another over the same context if it constructs no further class and
allows no further method. `stricter_never_enables` compares the two on every text: the stricter one
refuses what is not listed and calls nothing, or both make the same call and answer alike.
-/

namespace GuardedConsole

/-- Why a command is refused that asks for something which is not listed. -/
inductive Refusal.IsUnlisted : Refusal → Prop where
  | method (name : Text) : IsUnlisted (.methodNotAllowed name)
  | constructor (name : Text) : IsUnlisted (.constructorNotAllowed name)

theorem Refusal.IsUnlisted.kind_eq {reason : Refusal} (unlisted : reason.IsUnlisted) :
    reason.kind = .forbidden := by
  cases unlisted with
  | method name => rfl
  | constructor name => rfl

namespace Interpreter

variable {σ : Type} {i j : Interpreter} {h : Host σ} {s : σ} {t : Text} {path : Path}
  {scope name : Text} {arguments : List Value}

/-- Over the same context, `j` constructs only what `i` constructs, and each scope that has an
allow-list in `i` has one in `j` with no further names. `j` may have lists for more scopes. -/
structure Stricter (j i : Interpreter) : Prop where
  context : j.context = i.context
  constructors : ∀ name ∈ j.constructors, name ∈ i.constructors
  allowed : ∀ scope names, i.allowed.find? scope = some names →
    ∃ fewer, j.allowed.find? scope = some fewer ∧ ∀ name ∈ fewer, name ∈ names

/-! ### Lists -/

/-- A scope that is open in the stricter interpreter is open in the other one too. -/
theorem Stricter.isAllowed (stricter : j.Stricter i) (listed : j.isAllowed scope name = true) :
    i.isAllowed scope name = true := by
  rw [isAllowed_iff] at listed ⊢
  intro names limited
  obtain ⟨fewer, found, part⟩ := stricter.allowed scope names limited
  exact part name (listed fewer found)

theorem Stricter.follow (stricter : j.Stricter i) : j.follow h s path = i.follow h s path := by
  unfold Interpreter.follow bound?
  rw [stricter.context]

/-! ### Plans -/

theorem Stricter.planCall (stricter : j.Stricter i) :
    (∃ reason : Refusal, reason.IsUnlisted ∧
        j.planCall h s path arguments = .error (.refused reason)) ∨
      j.planCall h s path arguments = i.planCall h s path arguments := by
  unfold Interpreter.planCall
  rw [stricter.follow]
  cases i.follow h s path with
  | error f => exact .inr rfl
  | ok target =>
    dsimp only
    -- both look at the target before they look at the lists
    split
    · exact .inr rfl
    · split
      · exact .inr rfl
      · by_cases listed : j.isAllowed path.scope path.name = true
        · rw [listed, stricter.isAllowed listed]
          exact .inr rfl
        · rw [Bool.not_eq_true] at listed
          rw [listed]
          exact .inl ⟨_, .method path.name, rfl⟩

theorem Stricter.planConstruction (stricter : j.Stricter i) :
    (∃ reason : Refusal, reason.IsUnlisted ∧
        j.planConstruction h s name arguments = .error (.refused reason)) ∨
      j.planConstruction h s name arguments = i.planConstruction h s name arguments := by
  unfold Interpreter.planConstruction bound?
  rw [stricter.context]
  by_cases listed : name ∈ j.constructors
  · have listed' := stricter.constructors name listed
    rw [List.contains_iff_mem.mpr listed, List.contains_iff_mem.mpr listed']
    exact .inr rfl
  · have absent : j.constructors.contains name = false := by simpa using listed
    rw [absent]
    exact .inl ⟨_, .constructor name, rfl⟩

theorem Stricter.planCommand (stricter : j.Stricter i) (c : Command) :
    (∃ reason : Refusal, reason.IsUnlisted ∧ j.planCommand h s c = .error (.refused reason)) ∨
      j.planCommand h s c = i.planCommand h s c := by
  cases c with
  | property path =>
    right
    rw [Interpreter.planCommand, Interpreter.planCommand, stricter.follow]
  | call path arguments => exact stricter.planCall
  | construct name arguments => exact stricter.planConstruction

/-- The stricter interpreter refuses what is not listed, or plans what the other one plans. -/
theorem Stricter.plan (stricter : j.Stricter i) :
    (∃ reason : Refusal, reason.IsUnlisted ∧ j.plan h s t = .error (.refused reason)) ∨
      j.plan h s t = i.plan h s t := by
  unfold Interpreter.plan
  split
  · exact .inr rfl
  · exact .inr rfl
  · exact stricter.planCommand _

/-! ### Executions -/

theorem executeOn_congr (same : j.plan h s t = i.plan h s t) :
    j.executeOn h s t = i.executeOn h s t := by
  rw [executeOn, executeOn, same]

theorem calls_congr (same : j.plan h s t = i.plan h s t) : j.calls h s t = i.calls h s t := by
  have recorded : j.plan h.recording (s, []) t = i.plan h.recording (s, []) t := by
    rw [plan_recording, plan_recording, same]
  rw [calls, calls, executeOn_congr recorded]

/-- Tightening permissions enables nothing. On every text, either the stricter interpreter refuses a
method or a class that it does not list, which is its own decision and calls nothing; or both make
the same call, or none, and give the same answer and leave the same state. -/
theorem stricter_never_enables (stricter : j.Stricter i) (h : Host σ) (s : σ) (t : Text) :
    (∃ reason : Refusal, reason.IsUnlisted ∧ reason.kind = .forbidden ∧
        j.plan h s t = .error (.refused reason) ∧
        j.executeOn h s t = (.failed (.execution (.refused reason)), s) ∧ j.calls h s t = []) ∨
      (j.calls h s t = i.calls h s t ∧ j.executeOn h s t = i.executeOn h s t) := by
  rcases stricter.plan (h := h) (s := s) (t := t) with ⟨reason, unlisted, refused⟩ | same
  · exact .inl ⟨reason, unlisted, unlisted.kind_eq, refused, executeOn_of_plan_error refused,
      calls_of_plan_error refused⟩
  · exact .inr ⟨calls_congr same, executeOn_congr same⟩

/-- The calendar's interpreter, but nothing can be changed or constructed. -/
def forReading : Interpreter :=
  { forCalendar with
    constructors := []
    allowed := [("calendar".toText, ["get_events".toText, "get_view".toText]),
      ("event_store".toText, ["get_all".toText]), ("state".toText, []), ("help".toText, [])] }

theorem forReading_stricter : forReading.Stricter forCalendar where
  context := rfl
  constructors := List.forall_mem_nil _
  allowed := by
    have each : ∀ entry ∈ forCalendar.allowed, (forReading.allowed.find? entry.1).any
        (fun fewer => fewer.all fun name => entry.2.contains name) = true := by
      decide
    intro scope names limited
    obtain ⟨fewer, found, part⟩ :=
      (Option.any_eq_true _ _).mp (each _ (Table.mem_of_find? limited))
    exact ⟨fewer, found, fun name member =>
      List.contains_iff_mem.mp (List.all_eq_true.mp part name member)⟩

/-- The text that changes the calendar calls nothing any more, the one that reads it does. -/
theorem calls_forReading :
    let w := World.fresh ⟨0, none, by decide⟩
    (forReading.calls World.host w "calendar.today()".toText).length = 0 ∧
      (forCalendar.calls World.host w "calendar.today()".toText).length = 1 ∧
      (forReading.calls World.host w "calendar.get_events()".toText).length = 1 := by
  refine ⟨?_, ?_, ?_⟩
  · cbv
  · cbv
  · cbv

/-- A text that changes the calendar is refused, one that reads it is executed as before. -/
theorem forReading_never_enables :
    let w := World.fresh ⟨0, none, by decide⟩
    forReading.Stricter forCalendar ∧
      (∃ reason, forReading.plan World.host w "calendar.today()".toText =
        .error (.refused reason)) ∧
      forReading.executeOn World.host w "calendar.get_events()".toText =
        forCalendar.executeOn World.host w "calendar.get_events()".toText := by
  intro w
  obtain ⟨fewer, called, kept⟩ := calls_forReading
  refine ⟨forReading_stricter, ?_, ?_⟩
  · rcases stricter_never_enables forReading_stricter World.host w "calendar.today()".toText with
      ⟨reason, _, _, refused, _⟩ | ⟨same, _⟩
    · exact ⟨reason, refused⟩
    · rw [← same, fewer] at called
      cases called
  · rcases stricter_never_enables forReading_stricter World.host w
      "calendar.get_events()".toText with ⟨_, _, _, _, _, nothing⟩ | ⟨_, same⟩
    · rw [nothing] at kept
      cases kept
    · exact same

end Interpreter

end GuardedConsole
