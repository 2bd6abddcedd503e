import GuardedConsole.Calendar.Store

/-!
# Ordering events by start

Starts can be ordered if all of them have an offset or none has (`Comparable`). Then `sortByStart`
lists the events by start, those with equal starts in their old order (`InOrder`); otherwise it fails
(`sortByStart_of_mixed`).
-/

namespace GuardedConsole

open Time

namespace Time.Moment

variable {a b : Moment}

/-- The place of a moment among those that have an offset like it, or have none like it. -/
def position (m : Moment) : Int :=
  match m.offset with
  | none => m.ticks
  | some x => m.utcTicks x

theorem isBefore_of_alike (alike : a.offset.isSome = b.offset.isSome) :
    a.isBefore b = .ok (decide (a.position < b.position)) := by
  unfold isBefore isBefore? position
  cases left : a.offset with
  | none =>
    cases right : b.offset with
    | none => simp
    | some y => simp [left, right] at alike
  | some x =>
    cases right : b.offset with
    | none => simp [left, right] at alike
    | some y => simp

theorem isBefore_of_mixed (mixed : a.offset.isSome ≠ b.offset.isSome) :
    a.isBefore b = .error mixedOffsets := by
  unfold isBefore isBefore?
  cases left : a.offset with
  | none =>
    cases right : b.offset with
    | none => simp [left, right] at mixed
    | some y => rfl
  | some x =>
    cases right : b.offset with
    | none => rfl
    | some y => simp [left, right] at mixed

end Time.Moment

namespace EventStore

variable {e : Event} {events rest listed : List Event}

/-- All starts have an offset, or none of them has. -/
def Comparable (events : List Event) : Prop :=
  ∀ a ∈ events, ∀ b ∈ events, a.start.offset.isSome = b.start.offset.isSome

instance : Decidable (Comparable events) :=
  inferInstanceAs (Decidable (∀ a ∈ events, ∀ b ∈ events,
    a.start.offset.isSome = b.start.offset.isSome))

/-- The list has exactly the events, none of them starts after a later one, and events that start
together stand in the order in which they were. -/
structure InOrder (events listed : List Event) : Prop where
  same : listed.Perm events
  ordered : listed.Pairwise fun a b => a.start.position ≤ b.start.position
  stable : ∀ n, listed.filter (fun e => e.start.position = n) =
    events.filter fun e => e.start.position = n

theorem comparable_of_cons (comparable : Comparable (e :: events)) : Comparable events :=
  fun a inside b inside' =>
    comparable a (List.mem_cons_of_mem e inside) b (List.mem_cons_of_mem e inside')

theorem comparable_of_perm (perm : listed.Perm events) (comparable : Comparable events) :
    Comparable listed :=
  fun a inside b inside' => comparable a (perm.mem_iff.mp inside) b (perm.mem_iff.mp inside')

theorem inOrder_nil : InOrder [] [] :=
  ⟨.nil, .nil, fun _ => rfl⟩

/-! ### Comparable starts -/

/-- An event that starts before all others of an ordered list goes first. -/
theorem inOrder_cons (ordered : rest.Pairwise fun a b => a.start.position ≤ b.start.position)
    (first : ∀ f ∈ rest, e.start.position ≤ f.start.position) : InOrder (e :: rest) (e :: rest) where
  same := .refl _
  ordered := List.pairwise_cons.mpr ⟨first, ordered⟩
  stable _ := rfl

theorem insertByStart_of_comparable (comparable : Comparable (e :: events))
    (ordered : events.Pairwise fun a b => a.start.position ≤ b.start.position) :
    ∃ listed, insertByStart e events = .ok listed ∧ InOrder (e :: events) listed := by
  induction events with
  | nil => exact ⟨[e], rfl, inOrder_cons .nil (List.forall_mem_nil _)⟩
  | cons f rest ih =>
    obtain ⟨later, ordered'⟩ := List.pairwise_cons.mp ordered
    have alike : f.start.offset.isSome = e.start.offset.isSome :=
      comparable f (by simp) e (by simp)
    by_cases before : f.start.position < e.start.position
    · have comparable' : Comparable (e :: rest) := fun a inside b inside' =>
        comparable a (by grind) b (by grind)
      obtain ⟨listed, inserted, inOrder⟩ := ih comparable' ordered'
      refine ⟨f :: listed, ?_, ?_, ?_, ?_⟩
      · rw [insertByStart, Moment.isBefore_of_alike alike, decide_eq_true before, inserted]
      · exact (inOrder.same.cons f).trans (.swap e f rest)
      · refine List.pairwise_cons.mpr ⟨fun g member => ?_, inOrder.ordered⟩
        rcases List.mem_cons.mp (inOrder.same.mem_iff.mp member) with rfl | old
        · exact Int.le_of_lt before
        · exact later g old
      · -- `e` and `f` do not start together, so that at most one of them is kept
        intro n
        have stable := inOrder.stable n
        by_cases here : f.start.position = n
        · have apart : e.start.position ≠ n := by omega
          simp only [List.filter_cons, here, apart] at stable ⊢
          simpa using stable
        · simp only [List.filter_cons, here] at stable ⊢
          simpa using stable
    · refine ⟨e :: f :: rest, ?_, inOrder_cons ordered fun g member => ?_⟩
      · rw [insertByStart, Moment.isBefore_of_alike alike, decide_eq_false before]
      · rcases List.mem_cons.mp member with rfl | old
        · omega
        · have := later g old
          omega

theorem sortByStart_of_comparable (comparable : Comparable events) :
    ∃ listed, sortByStart events = .ok listed ∧ InOrder events listed := by
  induction events with
  | nil => exact ⟨[], rfl, inOrder_nil⟩
  | cons e rest ih =>
    obtain ⟨sorted, done, inOrder⟩ := ih (comparable_of_cons comparable)
    have perm : (e :: sorted).Perm (e :: rest) := inOrder.same.cons e
    obtain ⟨listed, inserted, inOrder'⟩ :=
      insertByStart_of_comparable (comparable_of_perm perm comparable) inOrder.ordered
    refine ⟨listed, ?_, inOrder'.same.trans perm, inOrder'.ordered, fun n => ?_⟩
    · rw [sortByStart, done]
      exact inserted
    · rw [inOrder'.stable n, List.filter_cons, List.filter_cons, inOrder.stable n]

/-! ### Mixed starts -/

theorem insertByStart_of_mixed (some : events ≠ [])
    (mixed : ∀ f ∈ events, f.start.offset.isSome ≠ e.start.offset.isSome) :
    insertByStart e events = .error Moment.mixedOffsets := by
  obtain ⟨f, rest, rfl⟩ := List.exists_cons_of_ne_nil some
  rw [insertByStart, Moment.isBefore_of_mixed (mixed f List.mem_cons_self)]

/-- An event that is mixed among comparable ones differs from each of them. -/
theorem mixed_of_cons (mixed : ¬Comparable (e :: rest)) (comparable : Comparable rest) :
    rest ≠ [] ∧ ∀ f ∈ rest, f.start.offset.isSome ≠ e.start.offset.isSome := by
  constructor
  · rintro rfl
    exact mixed (by simp [Comparable])
  · intro f member alike
    have all : ∀ a ∈ e :: rest, a.start.offset.isSome = e.start.offset.isSome := by
      intro a inside
      rcases List.mem_cons.mp inside with rfl | old
      · rfl
      · exact (comparable a old f member).trans alike
    exact mixed fun a inside b inside' => (all a inside).trans (all b inside').symm

theorem sortByStart_of_mixed (mixed : ¬Comparable events) :
    sortByStart events = .error Moment.mixedOffsets := by
  induction events with
  | nil => exact absurd (List.forall_mem_nil _) mixed
  | cons e rest ih =>
    rw [sortByStart]
    by_cases comparable : Comparable rest
    · obtain ⟨some, apart⟩ := mixed_of_cons mixed comparable
      obtain ⟨sorted, done, inOrder⟩ := sortByStart_of_comparable comparable
      have nonempty : sorted ≠ [] := by
        rintro rfl
        exact some inOrder.same.nil_eq.symm
      rw [done]
      exact insertByStart_of_mixed nonempty fun f member =>
        apart f (inOrder.same.mem_iff.mp member)
    · rw [ih comparable]

end EventStore

end GuardedConsole
