import GuardedConsole.Text.Basic

/-!
# Tracing a text to where it comes from

Some characters are breaks. A text is `Traced` to another one if each part of it without breaks is
also part of the other, and `Patched` if it is the other one with breaks in place of some stretches.
Patched texts are traced (`Patched.traced`), and dropping characters other than breaks from both texts
keeps them traced (`Traced.filter`).
-/

namespace GuardedConsole.Text

variable {breaks others p : CodePoint → Bool} {s t u v : Text}

/-- Every part of `u` without breaks is part of `t`. -/
def Traced (breaks : CodePoint → Bool) (u t : Text) : Prop :=
  ∀ s, s <:+: u → (∀ c ∈ s, breaks c = false) → s <:+: t

/-- The beginning of `t` with breaks in place of some stretches. -/
inductive Patched (breaks : CodePoint → Bool) : Text → Text → Prop where
  | nil (t : Text) : Patched breaks [] t
  | keep {u t : Text} (c : CodePoint) : Patched breaks u t → Patched breaks (c :: u) (c :: t)
  | patch {b : CodePoint} {u t : Text} (stretch : Text) : breaks b = true → Patched breaks u t →
    Patched breaks (b :: u) (stretch ++ t)

/-! ### Traced texts -/

theorem traced_of_part (part : u <:+: t) : Traced breaks u t :=
  fun _ inside _ => inside.trans part

theorem Traced.trans (first : Traced breaks u v) (second : Traced breaks v t) :
    Traced breaks u t :=
  fun s inside unbroken => second s (first s inside unbroken) unbroken

theorem Traced.filter (traced : Traced breaks u t) (kept : ∀ c, p c = false → breaks c = false) :
    Traced breaks (u.filter p) (t.filter p) := by
  intro s inside unbroken
  obtain ⟨s', part, rfl⟩ := List.infix_filter_iff.mp inside
  refine (traced s' part fun c member => ?_).filter p
  cases dropped : p c with
  | false => exact kept c dropped
  | true => exact unbroken c (List.mem_filter.mpr ⟨member, dropped⟩)

/-! ### Patched texts -/

theorem patched_refl (t : Text) : Patched breaks t t := by
  induction t with
  | nil => exact .nil []
  | cons c t ih => exact .keep c ih

theorem Patched.keep_append (patched : Patched breaks u t) (s : Text) :
    Patched breaks (s ++ u) (s ++ t) := by
  induction s with
  | nil => exact patched
  | cons c s ih => exact .keep c ih

theorem Patched.isPrefix (patched : Patched breaks u t) (begins : s <+: u)
    (unbroken : ∀ c ∈ s, breaks c = false) : s <+: t := by
  induction patched generalizing s with
  | nil t =>
    rw [List.prefix_nil.mp begins]
    exact List.nil_prefix
  | keep c _ ih =>
    cases s with
    | nil => exact List.nil_prefix
    | cons d s =>
      obtain ⟨rfl, rest⟩ := List.cons_prefix_cons.mp begins
      exact List.cons_prefix_cons.mpr
        ⟨rfl, ih rest fun c member => unbroken c (List.mem_cons_of_mem _ member)⟩
  | patch stretch isBreak _ _ =>
    cases s with
    | nil => exact List.nil_prefix
    | cons d s =>
      -- the break is not in `s`
      obtain ⟨rfl, _⟩ := List.cons_prefix_cons.mp begins
      rw [unbroken d List.mem_cons_self] at isBreak
      cases isBreak

theorem Patched.traced (patched : Patched breaks u t) : Traced breaks u t := by
  intro s inside unbroken
  induction patched with
  | nil t =>
    rw [List.infix_nil.mp inside]
    exact List.nil_infix
  | keep c patched ih =>
    rcases List.infix_cons_iff.mp inside with begins | later
    · exact ((Patched.keep c patched).isPrefix begins unbroken).isInfix
    · exact (ih later).trans (List.suffix_cons _ _).isInfix
  | patch stretch isBreak patched ih =>
    rcases List.infix_cons_iff.mp inside with begins | later
    · exact ((Patched.patch stretch isBreak patched).isPrefix begins unbroken).isInfix
    · exact (ih later).trans (List.suffix_append _ _).isInfix

/-! ### Texts that are patched -/

/-- Dropping backslashes before a break puts the break in place of both. -/
theorem patched_unescape {quote : CodePoint} (isBreak : breaks quote = true) (t : Text) :
    Patched breaks (unescape quote t) t := by
  fun_induction unescape quote t with
  | case1 => exact .nil []
  | case2 c => exact patched_refl [c]
  | case3 c d rest escaped ih =>
    obtain ⟨rfl, rfl⟩ := escaped
    exact .patch [.char '\\', d] isBreak ih
  | case4 c d rest _ ih => exact .keep c ih

theorem patched_replaceChar {old new : CodePoint} (isBreak : breaks new = true) (t : Text) :
    Patched breaks (replaceChar old new t) t := by
  induction t with
  | nil => exact .nil []
  | cons c t ih =>
    rw [replaceChar, List.map_cons]
    split
    · exact .patch [c] isBreak ih
    · exact .keep c ih

end GuardedConsole.Text
