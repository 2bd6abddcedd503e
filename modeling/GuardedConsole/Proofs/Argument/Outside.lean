import GuardedConsole.Proofs.Argument.Scanning

/-!
# Outside quoted texts

`Outside d t` says by the parts of a text alone that it ends outside quoted texts and `d` brackets
deep: it is made up of quoted texts and of characters that are not quotes. A scan keeps track of
exactly that: `outside_iff`.
-/

namespace GuardedConsole.Argument

open Scan Text

variable {d : Int} {q c : CodePoint} {t u body : Text}

/-- Inside quotes, the text does not reach the closing one: its own quotes stand directly behind
backslashes. -/
def StaysQuoted (q : CodePoint) (body : Text) : Prop :=
  ∀ before after, body = before ++ q :: after → before.getLast? = some (.char '\\')

/-- The text ends outside quoted texts, `d` brackets deep. Brackets inside quoted texts do not count,
and more may be closed than opened. -/
inductive Outside : Int → Text → Prop where
  | start : Outside 0 []
  | bare {d : Int} {t : Text} {c : CodePoint} : Outside d t → isQuote c = false →
    Outside (d + bracket c) (t ++ [c])
  | quoted {d : Int} {t body : Text} {q : CodePoint} : Outside d t → isQuote q = true →
    StaysQuoted q body → body.getLast? ≠ some (.char '\\') → Outside d (t ++ q :: (body ++ [q]))

/-! ### Inside a quoted text -/

theorem staysQuoted_nil (q : CodePoint) : StaysQuoted q [] := by
  intro before after split
  simp at split

theorem staysQuoted_of_not_mem (absent : q ∉ t) : StaysQuoted q t := by
  rintro before after rfl
  exact (absent (by simp)).elim

theorem staysQuoted_append (stays : StaysQuoted q t) (stays' : StaysQuoted q u) :
    StaysQuoted q (t ++ u) := by
  intro before after split
  rcases List.append_eq_append_iff.mp split with ⟨inner, rfl, behind⟩ | ⟨inner, rfl, behind⟩
  · rw [List.getLast?_append, stays' inner after behind]
    rfl
  · cases inner with
    | nil => cases stays' [] after behind.symm
    | cons d inner =>
      cases (List.cons.inj behind).1
      exact stays before inner rfl

theorem staysQuoted_concat_iff :
    StaysQuoted q (body ++ [c]) ↔
      StaysQuoted q body ∧ (c = q → body.getLast? = some (.char '\\')) := by
  constructor
  · intro stays
    refine ⟨fun before after split => stays before (after ++ [c]) (by simp [split]), ?_⟩
    rintro rfl
    exact stays body [] rfl
  · rintro ⟨stays, last⟩ before after split
    rcases List.eq_nil_or_concat after with rfl | ⟨inner, b, rfl⟩
    · obtain ⟨rfl, same⟩ := List.append_inj' split rfl
      exact last (List.cons.inj same).1
    · rw [List.concat_eq_append, ← List.cons_append, ← List.append_assoc] at split
      exact stays before inner (List.append_inj' split rfl).1

/-- A quoted text is open as long as its quote only comes behind backslashes. -/
theorem run_staysQuoted (stays : StaysQuoted q body) :
    Scan.run ⟨some q, d, false⟩ body = ⟨some q, d, body.getLast? == some (.char '\\')⟩ := by
  induction body using List.reverseRecOn with
  | nil => rfl
  | append_singleton body c ih =>
    obtain ⟨before, last⟩ := staysQuoted_concat_iff.mp stays
    rw [run_append, ih before, run_cons, run_nil, List.getLast?_concat]
    by_cases closes : c = q
    · simp [Scan.step, last closes]
    · simp [Scan.step, closes]

theorem run_opened {s : Scan} (bare : s.quote = none) (isOne : isQuote q = true)
    (stays : StaysQuoted q body) :
    s.run (q :: body) = ⟨some q, s.depth, body.getLast? == some (.char '\\')⟩ := by
  have opened : s.step q = ⟨some q, s.depth, false⟩ := by simp [Scan.step, bare, isOne]
  rw [run_cons, opened, run_staysQuoted stays]

theorem step_closing {e : Bool} : (Scan.mk (some q) d e).step q =
    ⟨if e = false then none else some q, d, q == .char '\\'⟩ := by
  simp [Scan.step]

/-! ### The state of a scan -/

theorem Outside.scanned (outside : Outside d t) :
    (Scan.run {} t).quote = none ∧ (Scan.run {} t).depth = d := by
  induction outside with
  | start => exact ⟨rfl, rfl⟩
  | @bare d t c _ noQuote ih =>
    rw [run_append, run_cons, run_nil]
    simp [Scan.step, ih.1, ih.2, noQuote]
  | @quoted d t body q _ isOne stays ends ih =>
    have inside := run_opened ih.1 isOne stays
    rw [← List.cons_append, run_append, run_append, inside, run_cons, run_nil, step_closing]
    simp [ends, ih.2]

/-- Behind the text, a quoted text is open that a quote `q` began. -/
def Opened (q : CodePoint) (d : Int) (t : Text) : Prop :=
  ∃ u body, t = u ++ q :: body ∧ Outside d u ∧ isQuote q = true ∧ StaysQuoted q body

/-- What the text is, if scanning it comes to this state. -/
def Described (s : Scan) (t : Text) : Prop :=
  match s.quote with
  | none => Outside s.depth t
  | some q => Opened q s.depth t

theorem Described.step_outside (outside : Outside d t) (c : CodePoint) :
    Described ((Scan.run {} t).step c) (t ++ [c]) := by
  obtain ⟨bare, rfl⟩ := outside.scanned
  cases isOne : isQuote c
  · have next : (Scan.run {} t).step c =
        ⟨none, (Scan.run {} t).depth + bracket c, c == '\\'⟩ := by
      simp [Scan.step, bare, isOne]
    rw [next]
    exact outside.bare isOne
  · have next : (Scan.run {} t).step c = ⟨some c, (Scan.run {} t).depth, false⟩ := by
      simp [Scan.step, bare, isOne]
    rw [next]
    exact ⟨t, [], rfl, outside, isOne, staysQuoted_nil c⟩

theorem Described.step_opened (opened : Opened q d t) (c : CodePoint) :
    Described ((Scan.run {} t).step c) (t ++ [c]) := by
  obtain ⟨u, body, rfl, outside, isOne, stays⟩ := opened
  obtain ⟨bare, rfl⟩ := outside.scanned
  rw [run_append, run_opened bare isOne stays, List.append_assoc, List.cons_append]
  by_cases ends : c = q ∧ body.getLast? ≠ some (.char '\\')
  · obtain ⟨rfl, apart⟩ := ends
    rw [step_closing, if_pos (by simpa using apart)]
    exact outside.quoted isOne stays apart
  · have inside : Scan.step ⟨some q, (Scan.run {} u).depth, body.getLast? == some (.char '\\')⟩ c =
        ⟨some q, (Scan.run {} u).depth, c == '\\'⟩ := by
      simpa [Scan.step] using ends
    rw [inside]
    refine ⟨u, body ++ [c], rfl, outside, isOne, staysQuoted_concat_iff.mpr ⟨stays, fun same => ?_⟩⟩
    exact Decidable.byContradiction fun apart => ends ⟨same, apart⟩

theorem described (t : Text) : Described (Scan.run {} t) t := by
  induction t using List.reverseRecOn with
  | nil => exact .start
  | append_singleton t c ih =>
    rw [run_append, run_cons, run_nil]
    -- an open quoted text goes on or ends, and one may begin outside
    unfold Described at ih
    split at ih
    · exact Described.step_outside ih c
    · exact Described.step_opened ih c

/-- A scan is outside quoted texts at a depth exactly if the text ends so. -/
theorem outside_iff :
    Outside d t ↔ (Scan.run {} t).quote = none ∧ (Scan.run {} t).depth = d := by
  refine ⟨Outside.scanned, ?_⟩
  rintro ⟨bare, rfl⟩
  have ended := described t
  unfold Described at ended
  rwa [bare] at ended

theorem outside_zero_iff : Outside 0 t ↔ (Scan.run {} t).AtTop :=
  outside_iff

end GuardedConsole.Argument
