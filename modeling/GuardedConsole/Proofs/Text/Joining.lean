import GuardedConsole.Text.Basic

/-!
# Cutting and joining

`cutAt` cuts at the first occurrence of a mark (`cutAt_eq_iff`), and `joinWith` is the intercalation
of lists.
-/

namespace GuardedConsole.Text

variable {mark : CodePoint} {t before after : Text}

theorem cutAt_of_not_mem (absent : mark ∉ t) : cutAt mark t = (t, none) := by
  induction t with
  | nil => rfl
  | cons c t ih =>
    rw [List.mem_cons, not_or] at absent
    rw [cutAt, if_neg (Ne.symm absent.1), ih absent.2]

theorem cutAt_append (absent : mark ∉ before) :
    cutAt mark (before ++ mark :: after) = (before, some after) := by
  induction before with
  | nil => rw [List.nil_append, cutAt, if_pos rfl]
  | cons c before ih =>
    rw [List.mem_cons, not_or] at absent
    rw [List.cons_append, cutAt, if_neg (Ne.symm absent.1), ih absent.2]

theorem cutAt_eq_iff :
    cutAt mark t = (before, some after) ↔ mark ∉ before ∧ t = before ++ mark :: after := by
  constructor
  · intro cut
    by_cases present : mark ∈ t
    · obtain ⟨front, back, rfl, absent⟩ := List.eq_append_cons_of_mem present
      rw [cutAt_append absent] at cut
      cases cut
      exact ⟨absent, rfl⟩
    · rw [cutAt_of_not_mem present] at cut
      cases cut
  · rintro ⟨absent, rfl⟩
    exact cutAt_append absent

theorem joinWith_cons_cons (separator part next : Text) (parts : List Text) :
    joinWith separator (part :: next :: parts) =
      part ++ separator ++ joinWith separator (next :: parts) := rfl

theorem joinWith_eq_intercalate (separator : Text) (parts : List Text) :
    joinWith separator parts = separator.intercalate parts := by
  induction parts with
  | nil => rfl
  | cons part parts ih =>
    cases parts with
    | nil => rw [joinWith, List.intercalate_singleton]
    | cons next parts => rw [joinWith_cons_cons, ih, List.intercalate_cons_cons]

theorem mem_joinWith {separator : Text} {parts : List Text} {c : CodePoint}
    (member : c ∈ joinWith separator parts) : c ∈ separator ∨ ∃ part ∈ parts, c ∈ part := by
  induction parts with
  | nil => cases member
  | cons part parts ih =>
    cases parts with
    | nil => exact .inr ⟨part, List.mem_cons_self, member⟩
    | cons next parts =>
      rw [joinWith_cons_cons, List.mem_append, List.mem_append] at member
      rcases member with (inPart | inSeparator) | later
      · exact .inr ⟨part, List.mem_cons_self, inPart⟩
      · exact .inl inSeparator
      · rcases ih later with inSeparator | ⟨other, listed, inOther⟩
        · exact .inl inSeparator
        · exact .inr ⟨other, List.mem_cons_of_mem _ listed, inOther⟩

theorem joinWith_append {separator : Text} {parts others : List Text} (filled : parts ≠ [])
    (filled' : others ≠ []) :
    joinWith separator (parts ++ others) =
      joinWith separator parts ++ separator ++ joinWith separator others := by
  induction parts with
  | nil => exact (filled rfl).elim
  | cons part parts ih =>
    cases parts with
    | nil =>
      obtain ⟨next, others, rfl⟩ := List.exists_cons_of_ne_nil filled'
      rfl
    | cons next parts =>
      rw [List.cons_append, List.cons_append, joinWith_cons_cons, ← List.cons_append,
        ih (List.cons_ne_nil _ _), joinWith_cons_cons]
      simp only [List.append_assoc]

theorem infix_joinWith (separator : Text) {part : Text} {parts : List Text} (listed : part ∈ parts) :
    part <:+: joinWith separator parts := by
  induction parts with
  | nil => cases listed
  | cons first parts ih =>
    cases parts with
    | nil =>
      obtain rfl := List.mem_singleton.mp listed
      exact List.infix_rfl
    | cons next parts =>
      rw [joinWith_cons_cons]
      rcases List.mem_cons.mp listed with rfl | later
      · rw [List.append_assoc]
        exact (List.prefix_append _ _).isInfix
      · exact (ih later).trans (List.suffix_append _ _).isInfix

end GuardedConsole.Text
