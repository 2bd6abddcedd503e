import GuardedConsole.Proofs.Argument.Outside

/-!
# Levels

A text is `Level` if scanning it returns to the depth where it began and its commas are some brackets
deeper. Texts that are level are level together (`level_joinWith`), and one deeper between brackets
(`Level.bracketed`), so that no comma of a text that begins and ends with brackets separates arguments
(`Level.uncut`).
-/

namespace GuardedConsole.Argument

open Scan Text

variable {s : Scan} {c : CodePoint} {k : Int} {t u : Text}

/-- Outside quoted texts, the text ends at the depth where it begins, and its commas are at least `k`
brackets deeper. -/
structure Level (k : Int) (t : Text) : Prop where
  ends : ∀ s : Scan, s.quote = none → (s.run t).quote = none ∧ (s.run t).depth = s.depth
  commas : ∀ s : Scan, s.quote = none → ∀ before after, t = before ++ .char ',' :: after →
    (s.run before).quote = none → s.depth + k ≤ (s.run before).depth

theorem Level.mono {k' : Int} (level : Level k t) (le : k' ≤ k) : Level k' t where
  ends := level.ends
  commas s bare before after split outside := by
    have deep := level.commas s bare before after split outside
    omega

theorem Level.append (level : Level k t) (level' : Level k u) : Level k (t ++ u) where
  ends s bare := by
    obtain ⟨quote, depth⟩ := level.ends s bare
    obtain ⟨quote', depth'⟩ := level'.ends (s.run t) quote
    rw [run_append]
    exact ⟨quote', depth'.trans depth⟩
  commas s bare before after split outside := by
    rcases List.append_eq_append_iff.mp split with ⟨inner, rfl, behind⟩ | ⟨inner, rfl, behind⟩
    · obtain ⟨quote, depth⟩ := level.ends s bare
      rw [run_append] at outside ⊢
      have deep := level'.commas (s.run t) quote inner after behind outside
      omega
    · cases inner with
      | nil =>
        obtain ⟨quote, depth⟩ := level.ends s bare
        rw [List.append_nil] at quote depth
        have deep := level'.commas (s.run before) quote [] after behind.symm outside
        rw [run_nil] at deep
        omega
      | cons comma inner =>
        cases (List.cons.inj behind).1
        exact level.commas s bare before inner rfl outside

theorem level_of_calm (calm : ∀ c ∈ t, isCalm c = true) : Level k t where
  ends s bare := by
    induction t generalizing s with
    | nil => exact ⟨bare, rfl⟩
    | cons c t ih =>
      obtain ⟨first, others⟩ := List.forall_mem_cons.mp calm
      simp only [isCalm, Bool.and_eq_true, Bool.not_eq_true', beq_iff_eq] at first
      have next : (s.step c).quote = none ∧ (s.step c).depth = s.depth := by
        simp [Scan.step, bare, first.1.1, first.1.2]
      obtain ⟨quote, depth⟩ := ih others (s.step c) next.1
      exact ⟨quote, depth.trans next.2⟩
  commas s bare before after split _ := by
    rw [split] at calm
    exact absurd (calm (.char ',') (by simp)) (by decide)

theorem level_comma : Level 0 [.char ','] where
  ends s bare := by
    obtain ⟨quote, depth, escaped⟩ := s
    cases bare
    exact ⟨rfl, Int.add_zero depth⟩
  commas s bare before after split _ := by
    obtain ⟨rfl, _⟩ : before = [] ∧ after = [] := by
      cases before with
      | nil => exact ⟨rfl, (List.cons.inj split).2.symm⟩
      | cons b before => exact absurd (List.cons.inj split).2.symm (by simp)
    rw [run_nil]
    omega

theorem level_joinWith {parts : List Text} (level : ∀ p ∈ parts, Level 0 p) :
    Level 0 (joinWith [.char ','] parts) := by
  induction parts with
  | nil => exact level_of_calm (List.forall_mem_nil _)
  | cons p parts ih =>
    obtain ⟨first, others⟩ := List.forall_mem_cons.mp level
    cases parts with
    | nil => exact first
    | cons next parts => exact (first.append level_comma).append (ih others)

/-- A mark that is not the last character stands before it. -/
theorem exists_of_concat_eq {last : CodePoint} {before after : Text} (other : last ≠ c)
    (split : t ++ [last] = before ++ c :: after) : ∃ inner, t = before ++ c :: inner := by
  rcases List.eq_nil_or_concat after with rfl | ⟨inner, d, rfl⟩
  · exact (other (List.cons.inj (List.append_inj' split rfl).2).1).elim
  · rw [List.concat_eq_append, ← List.cons_append, ← List.append_assoc] at split
    exact ⟨inner, (List.append_inj' split rfl).1⟩

/-- Between brackets, commas are one deeper. -/
theorem Level.bracketed {opener closer : CodePoint} (level : Level k t)
    (opens : isQuote opener = false ∧ bracket opener = 1)
    (closes : isQuote closer = false ∧ bracket closer = -1) :
    Level (k + 1) (opener :: (t ++ [closer])) := by
  have stepped {d : CodePoint} (noQuote : isQuote d = false) (s : Scan) (bare : s.quote = none) :
      (s.step d).quote = none ∧ (s.step d).depth = s.depth + bracket d := by
    simp [Scan.step, bare, noQuote]
  have noComma : opener ≠ ',' ∧ closer ≠ ',' := by
    constructor
    · rintro rfl
      exact absurd opens.2 (by decide)
    · rintro rfl
      exact absurd closes.2 (by decide)
  constructor
  · intro s bare
    obtain ⟨quote, depth⟩ := stepped opens.1 s bare
    obtain ⟨quote', depth'⟩ := level.ends _ quote
    obtain ⟨quote'', depth''⟩ := stepped closes.1 _ quote'
    rw [run_cons, run_append, run_cons, run_nil]
    exact ⟨quote'', by rw [depth'', depth', depth, opens.2, closes.2]; omega⟩
  · intro s bare before after split outside
    obtain ⟨quote, depth⟩ := stepped opens.1 s bare
    cases before with
    | nil => exact (noComma.1 (List.cons.inj split).1).elim
    | cons b before =>
      obtain ⟨rfl, later⟩ := List.cons.inj split
      rw [run_cons] at outside ⊢
      obtain ⟨inner, rfl⟩ := exists_of_concat_eq noComma.2 later
      have deep := level.commas _ quote before inner rfl outside
      rw [depth, opens.2] at deep
      omega

/-- A quoted text is level if no quote in it ends it and no backslash at its end keeps it open. -/
theorem level_staysQuoted (stays : StaysQuoted '"' t) (ends : t.getLast? ≠ some (.char '\\')) :
    Level k (.char '"' :: (t ++ [.char '"'])) := by
  constructor
  · intro s bare
    rw [← List.cons_append, run_append, run_opened bare rfl stays, run_cons, run_nil, step_closing]
    exact ⟨if_pos (by simpa using ends), rfl⟩
  · intro s bare before after split outside
    cases before with
    | nil => exact absurd (List.cons.inj split).1 (by decide)
    | cons b before =>
      obtain ⟨rfl, later⟩ := List.cons.inj split
      obtain ⟨inner, rfl⟩ := exists_of_concat_eq (by decide) later
      have inside : StaysQuoted '"' before := fun front back whole =>
        stays front (back ++ .char ',' :: inner) (by simp [whole])
      rw [run_opened bare rfl inside] at outside
      cases outside

theorem level_quoted (noQuote : .char '"' ∉ t) (noBackslash : .char '\\' ∉ t) :
    Level k (.char '"' :: (t ++ [.char '"'])) := by
  apply level_staysQuoted (staysQuoted_of_not_mem noQuote)
  intro last
  exact noBackslash (List.mem_of_getLast? last)

/-! ### At top level -/

theorem Level.closed (level : Level k t) : Closed t :=
  level.ends {} rfl

theorem Level.uncut (level : Level 1 t) : Uncut t := by
  rintro before after split ⟨outside, depth⟩
  have deep := level.commas {} rfl before after split outside
  have start : ({} : Scan).depth = 0 := rfl
  omega

end GuardedConsole.Argument
