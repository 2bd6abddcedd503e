import GuardedConsole.Screening.DenyList

/-!
# Where patterns occur

`Occurs` says that some part of a text is one that a row of elements stands for, and `FirstDenied`
that a pattern is the first of the deny list to occur. The search agrees with both: `occursIn_iff`
and `findViolation_eq_some_iff`.
-/

namespace GuardedConsole.Screening

variable {k : CharClass} {es : List Element} {t : Text}

/-- Some part of the text is one that the elements stand for. -/
def Occurs (es : List Element) (t : Text) : Prop :=
  ∃ before middle after, t = before ++ middle ++ after ∧ Spells es middle

/-- The pattern occurs in the text, and none that is listed before it does. -/
def FirstDenied (p : Pattern) (t : Text) : Prop :=
  ∃ earlier later, denyList = earlier ++ p :: later ∧ Occurs p.elements t ∧
    ∀ q ∈ earlier, ¬Occurs q.elements t

/-! ### The search from the beginning -/

theorem spells_many_iff :
    Spells (.many k :: es) t ↔
      ∃ run rest, t = run ++ rest ∧ (∀ c ∈ run, k.holds c) ∧ Spells es rest := by
  constructor
  · intro spelled
    generalize whole : Element.many k :: es = all at spelled
    induction spelled with
    | nil => cases whole
    | one _ _ _ => cases whole
    | done rest _ =>
      cases whole
      exact ⟨[], _, rfl, by simp, rest⟩
    | more first _ ih =>
      obtain ⟨run, rest, same, holds, spelled⟩ := ih whole
      cases whole
      refine ⟨_ :: run, rest, by rw [same, List.cons_append], ?_, spelled⟩
      intro c member
      rcases List.mem_cons.mp member with rfl | later
      · exact first
      · exact holds c later
  · rintro ⟨run, rest, rfl, holds, spelled⟩
    induction run with
    | nil => exact .done spelled
    | cons c run ih =>
      exact .more (holds c List.mem_cons_self)
        (ih fun d member => holds d (List.mem_cons_of_mem _ member))

theorem afterSome_iff {next : Text → Bool} :
    afterSome k next t = true ↔
      ∃ run rest, t = run ++ rest ∧ (∀ c ∈ run, k.holds c) ∧ next rest = true := by
  induction t with
  | nil =>
    constructor
    · intro accepted
      exact ⟨[], [], rfl, by simp, accepted⟩
    · rintro ⟨run, rest, same, _, accepted⟩
      obtain ⟨rfl, rfl⟩ := List.append_eq_nil_iff.mp same.symm
      exact accepted
  | cons c t ih =>
    rw [afterSome, Bool.or_eq_true, Bool.and_eq_true, ih]
    constructor
    · rintro (accepted | ⟨first, run, rest, rfl, holds, accepted⟩)
      · exact ⟨[], c :: t, rfl, by simp, accepted⟩
      · refine ⟨c :: run, rest, rfl, ?_, accepted⟩
        intro d member
        rcases List.mem_cons.mp member with rfl | later
        · exact first
        · exact holds d later
    · rintro ⟨run, rest, same, holds, accepted⟩
      cases run with
      | nil =>
        left
        rw [same]
        exact accepted
      | cons d run =>
        obtain ⟨rfl, rfl⟩ := List.cons.inj same
        exact .inr ⟨holds c List.mem_cons_self, run, rest, rfl,
          fun d member => holds d (List.mem_cons_of_mem _ member), accepted⟩

theorem beginsWith_iff :
    beginsWith es t = true ↔ ∃ middle after, t = middle ++ after ∧ Spells es middle := by
  induction es generalizing t with
  | nil =>
    constructor
    · intro _
      exact ⟨[], t, rfl, .nil⟩
    · intro _
      rfl
  | cons e es ih =>
    cases e with
    | one k =>
      constructor
      · intro found
        cases t with
        | nil => cases found
        | cons c t =>
          rw [beginsWith, Bool.and_eq_true, ih] at found
          obtain ⟨holds, middle, after, rfl, spelled⟩ := found
          exact ⟨c :: middle, after, rfl, .one holds spelled⟩
      · rintro ⟨middle, after, rfl, spelled⟩
        cases spelled with
        | one holds rest =>
          rw [List.cons_append, beginsWith, Bool.and_eq_true]
          exact ⟨holds, ih.mpr ⟨_, after, rfl, rest⟩⟩
    | many k =>
      rw [beginsWith, afterSome_iff]
      constructor
      · rintro ⟨run, rest, rfl, holds, found⟩
        obtain ⟨middle, after, rfl, spelled⟩ := ih.mp found
        exact ⟨run ++ middle, after, (List.append_assoc run middle after).symm,
          spells_many_iff.mpr ⟨run, middle, rfl, holds, spelled⟩⟩
      · rintro ⟨middle, after, rfl, spelled⟩
        obtain ⟨run, rest, rfl, holds, spelled⟩ := spells_many_iff.mp spelled
        exact ⟨run, rest ++ after, List.append_assoc run rest after, holds,
          ih.mpr ⟨rest, after, rfl, spelled⟩⟩

/-! ### The search anywhere -/

theorem occursIn_iff : occursIn es t = true ↔ Occurs es t := by
  induction t with
  | nil =>
    rw [occursIn, beginsWith_iff]
    constructor
    · rintro ⟨middle, after, same, spelled⟩
      exact ⟨[], middle, after, same, spelled⟩
    · rintro ⟨before, middle, after, same, spelled⟩
      obtain ⟨left, rfl⟩ := List.append_eq_nil_iff.mp same.symm
      obtain ⟨rfl, rfl⟩ := List.append_eq_nil_iff.mp left
      exact ⟨[], [], rfl, spelled⟩
  | cons c t ih =>
    rw [occursIn, Bool.or_eq_true, beginsWith_iff, ih]
    constructor
    · rintro (⟨middle, after, same, spelled⟩ | ⟨before, middle, after, rfl, spelled⟩)
      · exact ⟨[], middle, after, same, spelled⟩
      · exact ⟨c :: before, middle, after, rfl, spelled⟩
    · rintro ⟨before, middle, after, same, spelled⟩
      cases before with
      | nil => exact .inl ⟨middle, after, same, spelled⟩
      | cons d before =>
        obtain ⟨rfl, rfl⟩ := List.cons.inj same
        exact .inr ⟨before, middle, after, rfl, spelled⟩

theorem occursIn_eq_false_iff : occursIn es t = false ↔ ¬Occurs es t := by
  rw [← occursIn_iff, Bool.not_eq_true]

theorem findViolation_eq_some_iff {p : Pattern} :
    findViolation t = some p ↔ FirstDenied p t := by
  rw [findViolation, List.find?_eq_some_iff_append]
  constructor
  · rintro ⟨found, earlier, later, listed, none⟩
    refine ⟨earlier, later, listed, occursIn_iff.mp found, ?_⟩
    intro q member
    rw [← occursIn_eq_false_iff]
    simpa using none q member
  · rintro ⟨earlier, later, listed, found, none⟩
    refine ⟨occursIn_iff.mpr found, earlier, later, listed, ?_⟩
    intro q member
    simpa using occursIn_eq_false_iff.mpr (none q member)

theorem findViolation_eq_none_iff :
    findViolation t = none ↔ ∀ p ∈ denyList, ¬Occurs p.elements t := by
  rw [findViolation, List.find?_eq_none]
  simp only [occursIn_iff]

/-- Screening sees of a text only which of the patterns occur in it. -/
theorem findViolation_congr {s t : Text}
    (same : ∀ p ∈ denyList, (Occurs p.elements s ↔ Occurs p.elements t)) :
    findViolation s = findViolation t := by
  have agree : ∀ p ∈ denyList, occursIn p.elements s = occursIn p.elements t := by
    intro p member
    rw [Bool.eq_iff_iff, occursIn_iff, occursIn_iff]
    exact same p member
  unfold findViolation
  generalize denyList = patterns at agree
  induction patterns with
  | nil => rfl
  | cons p patterns ih =>
    rw [List.find?_cons, List.find?_cons, agree p List.mem_cons_self,
      ih fun q member => agree q (List.mem_cons_of_mem _ member)]

end GuardedConsole.Screening
