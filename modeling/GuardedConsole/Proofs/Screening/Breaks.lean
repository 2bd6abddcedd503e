import GuardedConsole.Proofs.Screening.Matching
import GuardedConsole.Proofs.Text.Tracing

/-!
# What no denied pattern matches across

No element of a denied pattern takes a quote, a slash or a backspace. So a text is clean if all of its
parts without them are (`clean_of_parts`), and what is traced to a clean text is clean
(`clean_of_traced`).
-/

namespace GuardedConsole.Screening

variable {es : List Element} {p : Pattern} {t u : Text}

def breaks : Text :=
  [.char '"', .char '\'', .char '\\', .char '/', .char '\x08']

def isBreak (c : CodePoint) : Bool :=
  breaks.contains c

/-- The element stands for the character, alone or among others. -/
def Element.takes : Element → CodePoint → Bool
  | .one k, c | .many k, c => k.holds c

theorem takes_of_spells (spelled : Spells es t) : ∀ c ∈ t, ∃ e ∈ es, e.takes c = true := by
  induction spelled with
  | nil => exact List.forall_mem_nil _
  | one holds _ ih =>
    refine List.forall_mem_cons.mpr ⟨⟨_, List.mem_cons_self, holds⟩, fun c member => ?_⟩
    obtain ⟨e, listed, takes⟩ := ih c member
    exact ⟨e, List.mem_cons_of_mem _ listed, takes⟩
  | done _ ih =>
    intro c member
    obtain ⟨e, listed, takes⟩ := ih c member
    exact ⟨e, List.mem_cons_of_mem _ listed, takes⟩
  | more holds _ ih => exact List.forall_mem_cons.mpr ⟨⟨_, List.mem_cons_self, holds⟩, ih⟩

theorem denyList_unbroken :
    ∀ p ∈ denyList, ∀ e ∈ p.elements, ∀ c ∈ breaks, e.takes c = false := by
  decide

theorem unbroken_of_spells (listed : p ∈ denyList) (spelled : Spells p.elements t) :
    ∀ c ∈ t, isBreak c = false := by
  intro c member
  obtain ⟨e, inside, takes⟩ := takes_of_spells spelled c member
  cases broken : isBreak c with
  | false => rfl
  | true =>
    rw [denyList_unbroken p listed e inside c (List.contains_iff_mem.mp broken)] at takes
    cases takes

theorem clean_of_part (clean : findViolation t = none) (part : u <:+: t) :
    findViolation u = none := by
  rw [findViolation_eq_none_iff] at clean ⊢
  rintro p listed ⟨before, middle, after, rfl, spelled⟩
  obtain ⟨before', after', rfl⟩ := part
  exact clean p listed ⟨before' ++ before, middle, after ++ after', by simp, spelled⟩

theorem clean_of_parts
    (parts : ∀ s, s <:+: t → (∀ c ∈ s, isBreak c = false) → findViolation s = none) :
    findViolation t = none := by
  rw [findViolation_eq_none_iff]
  rintro p listed ⟨before, middle, after, rfl, spelled⟩
  have clean := parts middle ⟨before, after, rfl⟩ (unbroken_of_spells listed spelled)
  exact findViolation_eq_none_iff.mp clean p listed ⟨[], middle, [], by simp, spelled⟩

theorem clean_of_traced (clean : findViolation t = none) (traced : Text.Traced isBreak u t) :
    findViolation u = none :=
  clean_of_parts fun s inside unbroken => clean_of_part clean (traced s inside unbroken)

end GuardedConsole.Screening
