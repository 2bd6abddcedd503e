import Mathlib
import GuardedConsole.Value.Dictionary
import GuardedConsole.Value.Sanitize

/-!
# Cleaning dictionaries

Under every path of keys, cleaning leaves the entries with harmless keys in their order, takes the
angle brackets out of their texts and keeps everything else (`at_sanitizeEntries_iff`,
`cleanedLevel_iff`). A dictionary `IsClean` if there is nothing to take out at any depth, and then it
stays as it is: `sanitizeEntries_eq_self_iff`.
-/

namespace GuardedConsole

open Value

/-! ### One entry -/

namespace Value

variable {key v w : Value} {t : Text}

/-- The text of the key begins neither with two underscores nor with `on`. -/
def IsHarmless (key : Value) : Prop :=
  ¬"__".toText <+: key.shown ∧ ¬"on".toText <+: key.shown

instance (key : Value) : Decidable key.IsHarmless :=
  inferInstanceAs (Decidable (¬"__".toText <+: key.shown ∧ ¬"on".toText <+: key.shown))

theorem isDangerousKey_eq_false_iff : key.isDangerousKey = false ↔ key.IsHarmless := by
  simp only [isDangerousKey, Text.isDangerous, dangerousBeginnings, IsHarmless, List.any_cons,
    List.any_nil, Bool.or_false, Bool.or_eq_false_iff, ← List.isPrefixOf_iff_prefix,
    Bool.not_eq_true]

/-- Neither angle bracket is in the text. -/
def IsUnbracketed (t : Text) : Prop :=
  CodePoint.char '<' ∉ t ∧ CodePoint.char '>' ∉ t

theorem isUnbracketed_withoutBrackets (t : Text) : IsUnbracketed t.withoutBrackets := by
  constructor <;> simp [Text.withoutBrackets]

theorem withoutBrackets_eq_self (unbracketed : IsUnbracketed t) : t.withoutBrackets = t := by
  refine List.filter_eq_self.mpr fun c member => ?_
  have opening : c ≠ '<' := fun same => unbracketed.1 (same ▸ member)
  have closing : c ≠ '>' := fun same => unbracketed.2 (same ▸ member)
  simp [opening, closing]

/-- The second value is what is left of the first under a harmless key: of a text everything but the
angle brackets, of a dictionary what cleaning leaves of it, and of any other value all. -/
inductive Leaves : Value → Value → Prop where
  | text (t : Text) : Leaves (.text t) (.text (t.filter fun c => c ≠ '<' ∧ c ≠ '>'))
  | dict (entries : Entries) : Leaves (.dict entries) (Value.dict entries).sanitize
  | other {v : Value} : (∀ t, v ≠ .text t) → (∀ entries, v ≠ .dict entries) → Leaves v v

theorem leaves_sanitizeItem (v : Value) : Leaves v v.sanitizeItem := by
  cases v with
  | text t =>
    have same : t.withoutBrackets = (t.filter fun c => c ≠ '<' ∧ c ≠ '>' : Text) :=
      List.filter_congr fun c _ => by rw [Bool.eq_iff_iff]; simp
    rw [sanitizeItem, same]
    exact .text t
  | dict entries => exact .dict entries
  | _ => exact .other (by simp) (by simp)

theorem leaves_iff : Leaves v w ↔ w = v.sanitizeItem := by
  constructor
  · intro leaves
    have given := leaves_sanitizeItem v
    cases leaves with
    | text t =>
      generalize (Value.text t).sanitizeItem = made at given
      cases given with
      | text => rfl
      | other noText => exact absurd rfl (noText t)
    | dict entries => rfl
    | other noText noDict =>
      generalize v.sanitizeItem = made at given
      cases given with
      | text => exact absurd rfl (noText _)
      | dict => exact absurd rfl (noDict _)
      | other => rfl
  · rintro rfl
    exact leaves_sanitizeItem v

theorem sanitizeItem_eq_dict_iff {cleaned : Entries} :
    v.sanitizeItem = .dict cleaned ↔
      ∃ entries, v = .dict entries ∧ cleaned = sanitizeEntries entries := by
  cases v <;> simp [sanitizeItem, eq_comm]

theorem sanitizeItem_eq_text (made : v.sanitizeItem = .text t) : IsUnbracketed t := by
  cases v <;> simp only [sanitizeItem, reduceCtorEq, Value.text.injEq] at made
  rw [← made]
  exact isUnbracketed_withoutBrackets _

end Value

/-! ### One level -/

namespace Entries

variable {entries cleaned deep inner : Entries} {key : Value} {path : List Value}
  {entry : Value × Value}

theorem sanitizeEntries_eq (entries : Entries) :
    sanitizeEntries entries =
      (entries.filter fun entry => entry.1.IsHarmless).map fun entry =>
        (entry.1, entry.2.sanitizeItem) := by
  induction entries with
  | nil => rfl
  | cons entry entries ih =>
    rw [sanitizeEntries]
    split
    · rename_i dangerous
      have dropped : ¬entry.1.IsHarmless := by
        rw [← isDangerousKey_eq_false_iff, dangerous]
        exact Bool.noConfusion
      rw [List.filter_cons_of_neg (by simpa using dropped), ih]
    · rename_i safe
      have kept : entry.1.IsHarmless :=
        isDangerousKey_eq_false_iff.mp (Bool.eq_false_of_not_eq_true safe)
      rw [List.filter_cons_of_pos (by simpa using kept), List.map_cons, ih]

theorem mem_sanitizeEntries_iff :
    entry ∈ sanitizeEntries entries ↔
      ∃ before ∈ entries, before.1.IsHarmless ∧ (before.1, before.2.sanitizeItem) = entry := by
  rw [sanitizeEntries_eq, List.mem_map]
  simp only [List.mem_filter, decide_eq_true_eq, and_assoc]

/-- The entries that are left are those with harmless keys, in their order, each with what is left of
its value. -/
def CleanedLevel (entries cleaned : Entries) : Prop :=
  List.Forall₂ (fun before after => after.1 = before.1 ∧ Leaves before.2 after.2)
    (entries.filter fun entry => entry.1.IsHarmless) cleaned

theorem cleanedLevel_iff : CleanedLevel entries cleaned ↔ cleaned = sanitizeEntries entries := by
  have pairs (before after : Value × Value) : after.1 = before.1 ∧ Leaves before.2 after.2 ↔
      (before.1, before.2.sanitizeItem) = after := by
    rw [leaves_iff, Prod.ext_iff, eq_comm, eq_comm (a := after.2)]
  simp only [CleanedLevel, pairs, sanitizeEntries_eq]
  rw [← List.forall₂_map_left_iff, List.forall₂_eq_eq_eq, eq_comm]

/-! ### Every level -/

/-- The entries of the dictionary that stands in another under a path of keys, at every key of which
there is a dictionary directly inside the one before. -/
inductive At : Entries → List Value → Entries → Prop where
  | here (entries : Entries) : At entries [] entries
  | under {entries inner deep : Entries} {key : Value} {path : List Value} :
    (key, .dict inner) ∈ entries → At inner path deep → At entries (key :: path) deep

theorem at_sanitizeEntries_iff :
    At (sanitizeEntries entries) path cleaned ↔
      (∀ key ∈ path, key.IsHarmless) ∧ ∃ deep, At entries path deep ∧ cleaned = sanitizeEntries deep := by
  constructor
  · intro inside
    -- every dictionary on the path is what is left of one that stands at the same key before
    generalize made : sanitizeEntries entries = whole at inside
    induction inside generalizing entries with
    | here =>
      subst made
      exact ⟨List.forall_mem_nil _, entries, .here entries, rfl⟩
    | under listed _ ih =>
      subst made
      obtain ⟨before, member, harmless, same⟩ := mem_sanitizeEntries_iff.mp listed
      obtain ⟨rfl, dict⟩ := Prod.mk.inj same
      obtain ⟨inner, whole, rfl⟩ := sanitizeItem_eq_dict_iff.mp dict
      obtain ⟨others, deep, inside, rfl⟩ := ih rfl
      refine ⟨List.forall_mem_cons.mpr ⟨harmless, others⟩, deep, .under ?_ inside, rfl⟩
      rw [← whole]
      exact member
  · rintro ⟨harmless, deep, inside, rfl⟩
    induction inside with
    | here entries => exact .here _
    | under listed _ ih =>
      obtain ⟨first, others⟩ := List.forall_mem_cons.mp harmless
      exact .under (mem_sanitizeEntries_iff.mpr ⟨_, listed, first, rfl⟩) (ih others)

/-- At every depth all keys are harmless and no text has angle brackets. -/
def IsClean (entries : Entries) : Prop :=
  ∀ path deep, At entries path deep → ∀ entry ∈ deep,
    entry.1.IsHarmless ∧ ∀ t, entry.2 = .text t → IsUnbracketed t

theorem IsClean.inside (clean : IsClean entries) (listed : (key, .dict inner) ∈ entries) :
    IsClean inner :=
  fun path deep inside => clean (key :: path) deep (.under listed inside)

theorem IsClean.of_cons (clean : IsClean (entry :: entries)) : IsClean entries := by
  rintro path deep inside
  cases inside with
  | here => exact fun other listed => clean [] _ (.here _) other (List.mem_cons_of_mem _ listed)
  | under listed inside =>
    exact clean _ deep (.under (List.mem_cons_of_mem _ listed) inside)

theorem isClean_sanitizeEntries (entries : Entries) : IsClean (sanitizeEntries entries) := by
  intro path deep inside entry listed
  obtain ⟨_, before, _, rfl⟩ := at_sanitizeEntries_iff.mp inside
  obtain ⟨_, _, harmless, rfl⟩ := mem_sanitizeEntries_iff.mp listed
  exact ⟨harmless, fun t made => sanitizeItem_eq_text made⟩

theorem sanitizeEntries_of_clean : ∀ entries : Entries, IsClean entries →
    sanitizeEntries entries = entries
  | [], _ => rfl
  | (key, v) :: entries, clean => by
    obtain ⟨harmless, unbracketed⟩ := clean [] _ (.here _) (key, v) List.mem_cons_self
    have item : v.sanitizeItem = v := by
      cases v with
      | text t => rw [sanitizeItem, withoutBrackets_eq_self (unbracketed t rfl)]
      | dict inner =>
        rw [sanitizeItem, sanitizeEntries_of_clean inner (clean.inside List.mem_cons_self)]
      | _ => rfl
    have safe : ¬key.isDangerousKey = true := by
      rw [isDangerousKey_eq_false_iff.mpr harmless]
      exact Bool.noConfusion
    rw [sanitizeEntries, if_neg safe, item, sanitizeEntries_of_clean entries clean.of_cons]

theorem sanitizeEntries_eq_self_iff : sanitizeEntries entries = entries ↔ IsClean entries := by
  constructor
  · intro same
    rw [← same]
    exact isClean_sanitizeEntries entries
  · exact sanitizeEntries_of_clean entries

end Entries

end GuardedConsole
