import GuardedConsole.Proofs.Argument.Levels
import GuardedConsole.Proofs.Json.Grammar

/-!
# Nesting of documents

A text without backslashes that stands for a document keeps its brackets in pairs and its commas
between them: `Stands.level`. So the members of a record are the pieces between its commas
(`pieces_members`).
-/

namespace GuardedConsole.Json

open Text Argument

variable {c : CodePoint} {t body content : Text} {j : Json}

theorem Denotes.no_quote (denotes : Denotes body content) (noBackslash : .char '\\' ∉ body) :
    .char '"' ∉ body := by
  induction denotes with
  | nil => exact List.not_mem_nil
  | plain other _ _ _ ih =>
    exact List.not_mem_cons_of_ne_of_not_mem (Ne.symm other)
      (ih (List.not_mem_of_not_mem_cons noBackslash))
  | escape _ _ => exact (noBackslash List.mem_cons_self).elim
  | unit _ _ => exact (noBackslash List.mem_cons_self).elim

theorem isCalm_of_space (space : isSpace c = true) : isCalm c = true := by
  simp only [isSpace, Bool.or_eq_true, beq_iff_eq] at space
  rcases space with ((rfl | rfl) | rfl) | rfl <;> rfl

theorem isCalm_of_atomic (atomic : isAtomic c = true) : isCalm c = true := by
  simp only [isAtomic, Bool.or_eq_true, beq_iff_eq] at atomic
  rcases atomic with (((digit | letter) | rfl) | rfl) | rfl
  · exact (calm_of_word (by simp [isAsciiWord, digit])).1
  · exact (calm_of_word (by simp [isAsciiWord, letter])).1
  · rfl
  · rfl
  · rfl

theorem MemberText.level {m : MemberText} (text : .char '\\' ∉ m.text → Level 1 m.text)
    (noBackslash : .char '\\' ∉ m.written) : Level 1 m.written := by
  have noBackslash' : .char '\\' ∉ m.body := fun member => noBackslash (by simp [written, member])
  have value := text fun member => noBackslash (by simp [written, member])
  have calm (u : Text) (part : ∀ c ∈ u, c ∈ m.before ++ m.between) : Level 1 u :=
    level_of_calm fun c member => isCalm_of_space (m.spaces c (part c member))
  have before := calm m.before fun c => List.mem_append_left _
  have between := calm m.between fun c => List.mem_append_right _
  have colon : Level 1 [.char ':'] := level_of_calm (by decide)
  have name := level_quoted (k := 1) (m.spelled.no_quote noBackslash') noBackslash'
  have whole := before.append (name.append (between.append (colon.append value)))
  simpa [written] using whole

theorem level_members {members : List MemberText}
    (texts : ∀ m ∈ members, .char '\\' ∉ m.text → Level 1 m.text)
    (noBackslash : .char '\\' ∉ joinWith [.char ','] (members.map MemberText.written)) :
    ∀ m ∈ members, Level 1 m.written := by
  intro m listed
  have within := infix_joinWith [.char ','] (List.mem_map_of_mem (f := MemberText.written) listed)
  exact MemberText.level (texts m listed) fun member => noBackslash (within.subset member)

theorem Stands.level (stands : Stands t j) (noBackslash : .char '\\' ∉ t) : Level 1 t := by
  induction stands with
  | atom read =>
    obtain ⟨p, _, split, atomic, _⟩ := readAtom_local read
    rw [List.append_nil] at split
    subst split
    exact level_of_calm fun c member => isCalm_of_atomic (atomic c member)
  | @text body _ denotes =>
    have noBackslash' : .char '\\' ∉ body := fun member => noBackslash (by simp [member])
    exact level_quoted (denotes.no_quote noBackslash') noBackslash'
  | noItems spaces =>
    have calm : Level 0 _ := level_of_calm fun c member => isCalm_of_space (spaces c member)
    exact calm.bracketed (by decide) (by decide)
  | @list parts _ _ ih =>
    refine (level_joinWith fun p listed => ?_).bracketed (by decide) (by decide)
    obtain ⟨part, inside, rfl⟩ := List.mem_map.mp listed
    refine (ih part inside fun member => ?_).mono (by decide)
    have within := infix_joinWith [.char ','] listed
    exact noBackslash (by simp [within.subset member])
  | noMembers spaces =>
    have calm : Level 0 _ := level_of_calm fun c member => isCalm_of_space (spaces c member)
    exact calm.bracketed (by decide) (by decide)
  | @record members _ _ ih =>
    refine (level_joinWith fun p listed => ?_).bracketed (by decide) (by decide)
    obtain ⟨m, inside, rfl⟩ := List.mem_map.mp listed
    refine (level_members ih (fun member => noBackslash ?_) m inside).mono (by decide)
    simp [member]
  | spaceBefore space _ ih =>
    have calm : Level 1 [_] := level_of_calm (List.forall_mem_singleton.mpr (isCalm_of_space space))
    exact calm.append (ih (List.not_mem_of_not_mem_cons noBackslash))
  | spaceAfter space _ ih =>
    have calm : Level 1 [_] := level_of_calm (List.forall_mem_singleton.mpr (isCalm_of_space space))
    exact (ih fun member => noBackslash (List.mem_append_left _ member)).append calm

theorem pieces_members {members : List MemberText} (filled : members ≠ [])
    (stands : ∀ m ∈ members, Stands m.text m.value)
    (noBackslash : .char '\\' ∉ joinWith [.char ','] (members.map MemberText.written)) :
    pieces {} (joinWith [.char ','] (members.map MemberText.written)) =
      members.map MemberText.written := by
  have level : ∀ t ∈ members.map MemberText.written, Level 1 t :=
    List.forall_mem_map.mpr (level_members (fun m listed => (stands m listed).level) noBackslash)
  obtain ⟨first, others, rfl⟩ := List.exists_cons_of_ne_nil filled
  rw [List.map_cons] at level ⊢
  have cut := pieces_joinWith (List.forall_mem_nil _)
    (fun t listed => (level t (List.dropLast_subset _ listed)).closed)
    (fun t listed => (level t listed).uncut) Scan.atTop_start
  simpa [Function.comp_def] using cut

end GuardedConsole.Json
