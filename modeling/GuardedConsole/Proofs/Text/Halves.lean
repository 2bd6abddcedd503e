import Mathlib.Data.List.Chain
import GuardedConsole.Text.Basic
import GuardedConsole.Proofs.Text.Trimming

/-!
# Halves of surrogate pairs

A plain text has no halves of surrogate pairs; it is what can be typed or kept in a file. A whole text
may have some, but no two that make up a character side by side.
-/

namespace GuardedConsole

/-- Do the code points make up one character when they stand side by side? -/
def CodePoint.Pairs : CodePoint → CodePoint → Prop
  | .high _, .low _ => True
  | _, _ => False

namespace Text

variable {c d : CodePoint} {s t : Text}

def IsPlain (t : Text) : Prop :=
  ∀ c ∈ t, c.isHalf = false

instance (t : Text) : Decidable t.IsPlain :=
  inferInstanceAs (Decidable (∀ c ∈ t, c.isHalf = false))

/-- No first half of a surrogate pair stands directly before a second half. -/
def IsWhole (t : Text) : Prop :=
  t.IsChain fun c d => ¬c.Pairs d

theorem not_pairs_of_char (char : c.isHalf = false) : ¬c.Pairs d := by
  cases c with
  | char c => exact id
  | high k => cases char
  | low l => exact id

theorem isWhole_cons : IsWhole (c :: t) ↔ (∀ d ∈ t.head?, ¬c.Pairs d) ∧ IsWhole t :=
  List.isChain_cons

theorem isWhole_nil : IsWhole [] :=
  List.isChain_nil

theorem isWhole_cons_of_char (char : c.isHalf = false) (whole : IsWhole t) : IsWhole (c :: t) :=
  isWhole_cons.mpr ⟨fun _ _ => not_pairs_of_char char, whole⟩

@[simp]
theorem isPlain_nil : IsPlain [] := nofun

@[simp]
theorem isPlain_cons : IsPlain (c :: t) ↔ c.isHalf = false ∧ IsPlain t :=
  List.forall_mem_cons

@[simp]
theorem isPlain_append : IsPlain (s ++ t) ↔ IsPlain s ∧ IsPlain t :=
  List.forall_mem_append

theorem IsPlain.isWhole (plain : t.IsPlain) : t.IsWhole := by
  induction t with
  | nil => exact isWhole_nil
  | cons c t ih =>
    obtain ⟨first, others⟩ := List.forall_mem_cons.mp plain
    exact isWhole_cons_of_char first (ih others)

theorem IsPlain.mono (plain : t.IsPlain) (part : s <:+: t) : s.IsPlain := fun c member =>
  plain c (part.subset member)

theorem IsPlain.trim (plain : t.IsPlain) : t.trim.IsPlain := by
  obtain ⟨before, after, split, _, _⟩ := trim_split t
  exact plain.mono ⟨before, after, split.symm⟩

end Text

end GuardedConsole
