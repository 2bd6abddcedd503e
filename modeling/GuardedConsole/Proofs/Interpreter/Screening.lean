import GuardedConsole.Proofs.Interpreter.Recording
import GuardedConsole.Proofs.Screening.Normalizing

/-!
# Screened commands

What is screened is what is read: a text, its normal form, and the normal form of that are denied
for the same pattern. `denied_text_never_dispatches` concludes that a text in which a denied pattern
occurs is refused with the first such pattern, and that nothing is called.
-/

namespace GuardedConsole.Interpreter

open Screening Time

variable {σ : Type} {t : Text} {now : Moment}

theorem validate_normalize (t : Text) : validate (normalize t) = validate t := by
  unfold validate
  rw [findViolation_normalize (normalize t)]

theorem parse_of_denied {p : Pattern} (denied : FirstDenied p t) :
    parse now t = .error (.refused (.denied p.source)) := by
  have found : findViolation (normalize t) = some p := by
    rw [findViolation_normalize]
    exact findViolation_eq_some_iff.mpr denied
  rw [parse, validate_normalize, validate, found]

theorem parse_of_clean (clean : ∀ p ∈ denyList, ¬Occurs p.elements t) :
    parse now t = Command.parse now (normalize t) := by
  have nothing : findViolation (normalize t) = none := by
    rw [findViolation_normalize]
    exact findViolation_eq_none_iff.mpr clean
  rw [parse, validate_normalize, validate, nothing]

theorem parse_eq_ok_iff {c : Option Command} :
    parse now t = .ok c ↔
      (∀ p ∈ denyList, ¬Occurs p.elements (normalize t)) ∧
        Command.parse now (normalize t) = .ok c := by
  constructor
  · intro parsed
    cases found : findViolation t with
    | some p =>
      rw [parse_of_denied (findViolation_eq_some_iff.mp found)] at parsed
      cases parsed
    | none =>
      have clean := findViolation_eq_none_iff.mp found
      rw [parse_of_clean clean] at parsed
      exact ⟨fun p listed => mt (occurs_normalize listed t).mp (clean p listed), parsed⟩
  · rintro ⟨clean, parsed⟩
    rw [parse_of_clean fun p listed => mt (occurs_normalize listed t).mpr (clean p listed)]
    exact parsed

theorem plan_of_denied {p : Pattern} (denied : FirstDenied p t) (i : Interpreter) (h : Host σ)
    (s : σ) : i.plan h s t = .error (.refused (.denied p.source)) := by
  rw [plan, parse_of_denied denied]

theorem exists_firstDenied (denied : ∃ p ∈ denyList, Occurs p.elements t) :
    ∃ p, FirstDenied p t := by
  cases found : findViolation t with
  | some p => exact ⟨p, findViolation_eq_some_iff.mp found⟩
  | none =>
    obtain ⟨p, listed, occurs⟩ := denied
    exact (findViolation_eq_none_iff.mp found p listed occurs).elim

/-- Screening sees the same in a text as in what is read of it. If a denied pattern occurs in the
text, reading and executing it are refused for the first such pattern, and nothing is called. -/
theorem denied_text_never_dispatches (t : Text) :
    (findViolation (normalize t) = findViolation t ∧
      findViolation (normalize (normalize t)) = findViolation t) ∧
    ((∃ p ∈ denyList, Occurs p.elements t) →
      ∃ p, FirstDenied p t ∧ findViolation t = some p ∧
        (∀ now, parse now t = .error (.refused (.denied p.source))) ∧
        ∀ (σ : Type) (h : Host σ) (i : Interpreter) (s : σ),
          i.executeOn h s t = (.failed (.execution (.refused (.denied p.source))), s) ∧
            i.calls h s t = []) := by
  refine ⟨⟨findViolation_normalize t, ?_⟩, ?_⟩
  · rw [findViolation_normalize, findViolation_normalize]
  · intro denied
    obtain ⟨p, first⟩ := exists_firstDenied denied
    refine ⟨p, first, findViolation_eq_some_iff.mpr first, fun _ => parse_of_denied first, ?_⟩
    intro σ h i s
    have planned := plan_of_denied first i h s
    exact ⟨executeOn_of_plan_error planned, calls_of_plan_error planned⟩

theorem timer_never_dispatches :
    (∃ p ∈ denyList, Occurs p.elements "setTimeout".toText) ∧
      ∃ p, FirstDenied p "setTimeout".toText ∧
        ∀ now, parse now "setTimeout".toText = .error (.refused (.denied p.source)) := by
  have denied : ∃ p ∈ denyList, Occurs p.elements "setTimeout".toText :=
    ⟨⟨"setTimeout".toText, caseless "setTimeout"⟩, by simp [denyList],
      occursIn_iff.mp (by decide +kernel)⟩
  obtain ⟨p, first, _, refused, _⟩ := (denied_text_never_dispatches _).2 denied
  exact ⟨denied, p, first, refused⟩

end GuardedConsole.Interpreter
