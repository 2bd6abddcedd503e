import Mathlib
import GuardedConsole.Proofs.Interpreter.Screening

/-!
# Denied texts in disguise

Every element of a denied pattern takes an ASCII letter in both cases or in neither, so a denied
pattern stays in a text whose letters change case (`spells_recased`) and in every text around it
(`occurs_wrapped`). `wrapped_text_stays_denied` concludes that such a text is refused as well, for
the same pattern or for one that is listed before it.
-/

namespace GuardedConsole

/-! ### Letter case -/

namespace Text

variable {c d : CodePoint}

/-- The texts differ at most in the case of ASCII letters: `CodePoint.toLower` changes nothing else. -/
def Recased (t t' : Text) : Prop :=
  t.map CodePoint.toLower = t'.map CodePoint.toLower

instance (t t' : Text) : Decidable (Recased t t') :=
  inferInstanceAs (Decidable (t.map CodePoint.toLower = t'.map CodePoint.toLower))

theorem isAsciiLetter_char (c : Char) : isAsciiLetter c = c.isAlpha := by
  simp only [isAsciiLetter, CodePoint.toNat, Char.isAlpha, Char.isUpper, Char.isLower, ge_iff_le,
    UInt32.le_iff_toNat_le, Bool.decide_and]
  exact Bool.or_comm _ _

/-- Two characters with the same small form are the same, or letters. -/
theorem eq_or_letters (same : c.toLower = d.toLower) :
    c = d ∨ isAsciiLetter c = true ∧ isAsciiLetter d = true := by
  cases c with
  | char c =>
    cases d with
    | char d =>
      have lowered : c.toLower = d.toLower := CodePoint.char.inj same
      have alike : c.isAlpha = d.isAlpha := by
        rw [← Char.isAlpha_toLower_eq_isAlpha c, lowered, Char.isAlpha_toLower_eq_isAlpha]
      rw [isAsciiLetter_char, isAsciiLetter_char, ← alike]
      cases letter : c.isAlpha with
      | true => exact .inr ⟨rfl, rfl⟩
      | false =>
        rw [letter] at alike
        rw [Char.toLower_eq_of_not_isUpper (by simp_all [Char.isAlpha]),
          Char.toLower_eq_of_not_isUpper (by simp_all [Char.isAlpha])] at lowered
        exact .inl (congrArg _ lowered)
    | high k => cases same
    | low k => cases same
  | high k => cases d <;> cases same; exact .inl rfl
  | low k => cases d <;> cases same; exact .inl rfl

theorem foldLetter_of_letter (letter : isAsciiLetter c = true) : foldLetter c = c.toLower := by
  have small : c.toNat ≤ 122 := by
    simp only [isAsciiLetter, Bool.or_eq_true, Bool.and_eq_true, decide_eq_true_eq] at letter
    omega
  have other : ∀ {d : CodePoint}, 122 < d.toNat → c ≠ d := by
    rintro d large rfl
    omega
  rw [foldLetter, if_neg (not_or.mpr ⟨other (by decide), other (by decide)⟩),
    if_neg (other (by decide)), if_neg (other (by decide))]

theorem isWord_of_letter (letter : isAsciiLetter c = true) : isWord c = true := by
  rw [isWord, isAsciiWord, letter, Bool.true_or, Bool.true_or, Bool.true_or]

end Text

/-! ### Patterns -/

namespace Screening

open Text

variable {k : CharClass} {e : Element} {es : List Element} {p : Pattern} {t t' : Text}
  {c d : CodePoint}

/-- Does the class take an ASCII letter in both cases or in neither? -/
def CharClass.ignoresCase : CharClass → Bool
  | .exact p => !isAsciiLetter p
  | .letter _ | .blank | .word => true

def Element.ignoresCase : Element → Bool
  | .one k | .many k => k.ignoresCase

theorem holds_recased (ignores : k.ignoresCase = true) (same : c.toLower = d.toLower)
    (holds : k.holds c = true) : k.holds d = true := by
  rcases eq_or_letters same with rfl | ⟨letter, letter'⟩
  · exact holds
  -- both are letters, which only a single character could tell apart
  cases k with
  | letter p =>
    rw [CharClass.holds, matchesLetter, foldLetter_of_letter letter] at holds
    rw [CharClass.holds, matchesLetter, foldLetter_of_letter letter', ← same]
    exact holds
  | exact p =>
    obtain rfl : p = c := beq_iff_eq.mp holds
    rw [CharClass.ignoresCase, letter] at ignores
    cases ignores
  | blank =>
    have word : isAsciiWord c = true := by rw [isAsciiWord, letter, Bool.true_or, Bool.true_or]
    have notBlank := (Bool.or_eq_false_iff.mp (isRemovable_of_word word)).1
    rw [CharClass.holds, notBlank] at holds
    cases holds
  | word => exact isWord_of_letter letter'

/-- What a row of elements stands for, it stands for in every letter case. -/
theorem spells_recased (ignores : ∀ e ∈ es, e.ignoresCase = true) (spelled : Spells es t)
    (recased : Recased t t') : Spells es t' := by
  induction spelled generalizing t' with
  | nil =>
    obtain rfl : t' = [] := List.map_eq_nil_iff.mp recased.symm
    exact .nil
  | one holds _ ih =>
    obtain ⟨first, others⟩ := List.forall_mem_cons.mp ignores
    obtain ⟨d, rest, rfl, same, recased⟩ := List.map_eq_cons_iff.mp recased.symm
    exact .one (holds_recased first same.symm holds) (ih others recased.symm)
  | done _ ih => exact .done (ih (List.forall_mem_cons.mp ignores).2 recased)
  | more holds _ ih =>
    obtain ⟨d, rest, rfl, same, recased⟩ := List.map_eq_cons_iff.mp recased.symm
    have first := ignores _ List.mem_cons_self
    exact .more (holds_recased first same.symm holds) (ih ignores recased.symm)

theorem occurs_recased (ignores : ∀ e ∈ es, e.ignoresCase = true) (occurs : Occurs es t)
    (recased : Recased t t') : Occurs es t' := by
  obtain ⟨front, middle, back, rfl, spelled⟩ := occurs
  rw [Recased, List.map_append, List.map_append] at recased
  obtain ⟨inFront, back', rfl, front_same, _⟩ := List.map_eq_append_iff.mp recased.symm
  obtain ⟨front', middle', rfl, _, middle_same⟩ := List.map_eq_append_iff.mp front_same
  exact ⟨front', middle', back', rfl, spells_recased ignores spelled middle_same.symm⟩

theorem occurs_wrapped (occurs : Occurs es t) (before after : Text) :
    Occurs es (before ++ t ++ after) := by
  obtain ⟨front, middle, back, rfl, spelled⟩ := occurs
  exact ⟨before ++ front, middle, back ++ after, by simp only [List.append_assoc], spelled⟩

theorem denyList_ignoresCase : ∀ p ∈ denyList, ∀ e ∈ p.elements, e.ignoresCase = true := by
  decide

/-- Where a denied pattern occurs, it or one that is listed before it is found. -/
theorem exists_found (listed : p ∈ denyList) (occurs : Occurs p.elements t) :
    ∃ q, findViolation t = some q ∧ denyList.idxOf q ≤ denyList.idxOf p := by
  cases found : findViolation t with
  | none => exact absurd occurs (findViolation_eq_none_iff.mp found p listed)
  | some q =>
    obtain ⟨earlier, later, order, here, nowhere⟩ := findViolation_eq_some_iff.mp found
    have notBefore {r : Pattern} (occurs : Occurs r.elements t) : r ∉ earlier :=
      fun before => nowhere r before occurs
    refine ⟨q, rfl, ?_⟩
    rw [order, List.idxOf_append_of_notMem (notBefore here),
      List.idxOf_append_of_notMem (notBefore occurs), List.idxOf_cons_self]
    exact Nat.le_add_right _ _

end Screening

/-! ### Refusals -/

namespace Interpreter

open Screening Text

/-- A text in which a denied pattern is found, in whatever letter case and whatever stands around it,
is denied for the same pattern or for one that is listed before it. So it is neither read nor
executed, and nothing is called. -/
theorem wrapped_text_stays_denied {t t' : Text} {p : Pattern} (found : findViolation t = some p)
    (recased : Recased t t') (before after : Text) :
    ∃ q, findViolation (before ++ t' ++ after) = some q ∧ denyList.idxOf q ≤ denyList.idxOf p ∧
      validate (before ++ t' ++ after) = .error (.denied q.source) ∧
      (∀ now, parse now (before ++ t' ++ after) = .error (.refused (.denied q.source))) ∧
      ∀ (σ : Type) (h : Host σ) (i : Interpreter) (s : σ),
        i.executeOn h s (before ++ t' ++ after) =
            (.failed (.execution (.refused (.denied q.source))), s) ∧
          i.calls h s (before ++ t' ++ after) = [] := by
  have listed : p ∈ denyList := List.mem_of_find?_eq_some found
  obtain ⟨_, _, _, occurs, _⟩ := findViolation_eq_some_iff.mp found
  have kept := occurs_recased (denyList_ignoresCase p listed) occurs recased
  obtain ⟨q, found', early⟩ := exists_found listed (occurs_wrapped kept before after)
  have denied := findViolation_eq_some_iff.mp found'
  refine ⟨q, found', early, ?_, fun _ => parse_of_denied denied, fun σ h i s => ?_⟩
  · rw [validate, findViolation_normalize, found']
  · have planned := plan_of_denied denied i h s
    exact ⟨executeOn_of_plan_error planned, calls_of_plan_error planned⟩

/-- A timer in capitals, wrapped in the call of another method. -/
theorem wrapped_timer_stays_denied :
    findViolation "setTimeout".toText = some ⟨"setTimeout".toText, caseless "setTimeout"⟩ ∧
      Recased "setTimeout".toText "SETTIMEOUT".toText ∧
      ∃ q, findViolation "note(eval ( SETTIMEOUT ))".toText = some q ∧
        denyList.idxOf q ≤ denyList.idxOf ⟨"setTimeout".toText, caseless "setTimeout"⟩ := by
  have found : findViolation "setTimeout".toText =
      some ⟨"setTimeout".toText, caseless "setTimeout"⟩ := by decide +kernel
  have recased : Recased "setTimeout".toText "SETTIMEOUT".toText := by decide +kernel
  obtain ⟨q, found', early, _⟩ := wrapped_text_stays_denied found recased
    "note(eval ( ".toText " ))".toText
  exact ⟨found, recased, q, found', early⟩

end Interpreter

end GuardedConsole
