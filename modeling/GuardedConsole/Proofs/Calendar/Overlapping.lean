import Mathlib.Data.Sym.Sym2
import GuardedConsole.Proofs.Calendar.Selecting

/-!
# Events that overlap

Two naive events overlap if each starts before the other ends. `overlappingPairs` lists the unordered
pairs of overlapping events once each, in the order of the listing (`ListsOverlaps`), and the
conflicts of an event are its partners in these pairs (`conflicts_of_naive`).
-/

namespace GuardedConsole

open Time

namespace Event

variable {a b : Event}

/-- The half-open spans of two events without offsets overlap. -/
def Overlapping (a b : Event) : Prop :=
  a.start.ticks < b.stop.ticks ∧ b.start.ticks < a.stop.ticks

instance : Decidable (a.Overlapping b) :=
  inferInstanceAs (Decidable (_ ∧ _))

theorem overlapping_comm : a.Overlapping b ↔ b.Overlapping a :=
  and_comm

theorem overlaps_of_naive (left : a.IsNaive) (right : b.IsNaive) :
    a.overlaps b = .ok (decide (a.Overlapping b)) := by
  unfold overlaps
  rw [Moment.isBefore_of_naive left.start right.stop, Moment.isBefore_of_naive right.start left.stop]
  by_cases before : a.start.ticks < b.stop.ticks <;> simp [Overlapping, before]

end Event

namespace EventStore

variable {s : EventStore} {events listed rest : List Event} {pairs : List (Event × Event)}
  {a b e f : Event}

/-! ### Pairs -/

/-- The first event is listed before the second. -/
def Before (listed : List Event) (a b : Event) : Prop :=
  [a, b].Sublist listed

theorem Before.cons (before : Before rest a b) (e : Event) : Before (e :: rest) a b :=
  List.Sublist.cons e before

theorem before_head (listed : b ∈ rest) : Before (e :: rest) e b :=
  (List.singleton_sublist.mpr listed).cons_cons e

theorem before_cons_iff : Before (e :: rest) a b ↔ Before rest a b ∨ a = e ∧ b ∈ rest := by
  unfold Before
  rw [List.sublist_cons_iff]
  simp

theorem Before.mem (before : Before listed a b) : a ∈ listed ∧ b ∈ listed :=
  ⟨before.subset (by simp), before.subset (by simp)⟩

theorem Before.ne (distinct : listed.Nodup) (before : Before listed a b) : a ≠ b := by
  have apart := distinct.sublist before
  simpa using apart

/-- Of two listed events one is listed before the other. -/
theorem before_or_before (left : a ∈ listed) (right : b ∈ listed) (apart : a ≠ b) :
    Before listed a b ∨ Before listed b a := by
  induction listed with
  | nil => cases left
  | cons e rest ih =>
    rcases List.mem_cons.mp left with rfl | old
    · have later : b ∈ rest := (List.mem_cons.mp right).resolve_left (Ne.symm apart)
      exact .inl (before_head later)
    · rcases List.mem_cons.mp right with rfl | old'
      · exact .inr (before_head old)
      · exact (ih old old').imp (fun before => before.cons e) (fun before => before.cons e)

/-- A list stands in its own order. -/
theorem pairwise_before (listed : List Event) : listed.Pairwise (Before listed) := by
  induction listed with
  | nil => exact .nil
  | cons e rest ih =>
    exact .cons (fun f inside => before_head inside) (ih.imp fun before => before.cons e)

/-- The unordered pairs of a list of pairs. -/
def unordered (pairs : List (Event × Event)) : List (Sym2 Event) :=
  pairs.map fun pair => s(pair.1, pair.2)

theorem mem_unordered_iff : s(a, b) ∈ unordered pairs ↔ (a, b) ∈ pairs ∨ (b, a) ∈ pairs := by
  unfold unordered
  rw [List.mem_map]
  constructor
  · rintro ⟨⟨x, y⟩, inside, same⟩
    rcases Sym2.eq_iff.mp same with ⟨rfl, rfl⟩ | ⟨rfl, rfl⟩
    · exact .inl inside
    · exact .inr inside
  · rintro (inside | inside)
    · exact ⟨(a, b), inside, rfl⟩
    · exact ⟨(b, a), inside, Sym2.eq_swap⟩

/-- The pairs are the unordered pairs of distinct listed events that overlap, each of them once. The
events of a pair stand in the order of the list, and so do the pairs: by their first events, and
those with the same first event by their second ones. -/
structure ListsOverlaps (listed : List Event) (pairs : List (Event × Event)) : Prop where
  once : (unordered pairs).Nodup
  exactly : ∀ a b, s(a, b) ∈ unordered pairs ↔
    a ∈ listed ∧ b ∈ listed ∧ a ≠ b ∧ a.Overlapping b
  inside : ∀ pair ∈ pairs, Before listed pair.1 pair.2
  ordered : pairs.Pairwise (Prod.Lex (Before listed) (Before listed))

/-! ### Enumerating pairs -/

/-- The pairs of overlapping events of a list, each event with those that are listed after it. -/
def pairsOf : List Event → List (Event × Event)
  | [] => []
  | e :: rest => (rest.filter fun f => e.Overlapping f).map (fun f => (e, f)) ++ pairsOf rest

theorem overlappingPairs_of_naive (naive : ∀ e ∈ listed, e.IsNaive) :
    overlappingPairs listed = .ok (pairsOf listed) := by
  induction listed with
  | nil => rfl
  | cons e rest ih =>
    obtain ⟨first, others⟩ := List.forall_mem_cons.mp naive
    have partners : select e.overlaps rest = .ok (rest.filter fun f => e.Overlapping f) :=
      select_eq_filter fun f inside => Event.overlaps_of_naive first (others f inside)
    unfold overlappingPairs
    rw [partners, ih others]
    rfl

theorem mem_pairsOf_iff : (a, b) ∈ pairsOf listed ↔ Before listed a b ∧ a.Overlapping b := by
  induction listed with
  | nil => simp [pairsOf, Before]
  | cons e rest ih =>
    rw [pairsOf, List.mem_append, ih, before_cons_iff]
    simp only [List.mem_map, List.mem_filter, decide_eq_true_eq, Prod.mk.injEq]
    constructor
    · rintro (⟨f, ⟨inside, overlapping⟩, rfl, rfl⟩ | ⟨before, overlapping⟩)
      · exact ⟨.inr ⟨rfl, inside⟩, overlapping⟩
      · exact ⟨.inl before, overlapping⟩
    · rintro ⟨before | ⟨rfl, inside⟩, overlapping⟩
      · exact .inr ⟨before, overlapping⟩
      · exact .inl ⟨b, ⟨inside, overlapping⟩, rfl, rfl⟩

theorem ordered_pairsOf (listed : List Event) :
    (pairsOf listed).Pairwise (Prod.Lex (Before listed) (Before listed)) := by
  induction listed with
  | nil => exact .nil
  | cons e rest ih =>
    rw [pairsOf, List.pairwise_append]
    refine ⟨?_, ?_, ?_⟩
    · -- pairs with the same first event
      rw [List.pairwise_map]
      apply List.Pairwise.filter
      exact (pairwise_before rest).imp fun before => .right e (before.cons e)
    · refine ih.imp ?_
      rintro _ _ (⟨_, _, before⟩ | ⟨_, before⟩)
      · exact .left _ _ (before.cons e)
      · exact .right _ (before.cons e)
    · intro first inside later inside'
      obtain ⟨f, _, rfl⟩ := List.mem_map.mp inside
      obtain ⟨before, _⟩ := mem_pairsOf_iff.mp inside'
      exact .left _ _ (before_head before.mem.1)

theorem nodup_unordered_pairsOf (distinct : listed.Nodup) : (unordered (pairsOf listed)).Nodup := by
  induction listed with
  | nil => exact .nil
  | cons e rest ih =>
    obtain ⟨new, distinct⟩ := List.nodup_cons.mp distinct
    unfold unordered pairsOf
    rw [List.map_append, List.map_map, List.nodup_append]
    refine ⟨?_, ih distinct, ?_⟩
    · refine (distinct.filter _).map ?_
      intro f g same
      exact Sym2.congr_right.mp same
    · -- the pairs of the rest do not have the first event
      rintro pair inside _ inside' rfl
      obtain ⟨f, _, rfl⟩ := List.mem_map.mp inside
      rcases mem_unordered_iff.mp inside' with listed | listed
      · exact new (mem_pairsOf_iff.mp listed).1.mem.1
      · exact new (mem_pairsOf_iff.mp listed).1.mem.2

theorem listsOverlaps_pairsOf (distinct : listed.Nodup) : ListsOverlaps listed (pairsOf listed) where
  once := nodup_unordered_pairsOf distinct
  exactly a b := by
    rw [mem_unordered_iff, mem_pairsOf_iff, mem_pairsOf_iff]
    constructor
    · rintro (⟨before, overlapping⟩ | ⟨before, overlapping⟩)
      · exact ⟨before.mem.1, before.mem.2, before.ne distinct, overlapping⟩
      · exact ⟨before.mem.2, before.mem.1, (before.ne distinct).symm,
          Event.overlapping_comm.mp overlapping⟩
    · rintro ⟨left, right, apart, overlapping⟩
      rcases before_or_before left right apart with before | before
      · exact .inl ⟨before, overlapping⟩
      · exact .inr ⟨before, Event.overlapping_comm.mp overlapping⟩
  inside pair inside := (mem_pairsOf_iff.mp inside).1
  ordered := ordered_pairsOf listed

/-! ### Conflicts of one event -/

/-- The conflicts of a listed event are its partners, if no two events have the same id. -/
theorem conflicts_of_naive (naive : ∀ e ∈ listed, e.IsNaive) (sorted : s.all = .ok listed)
    (distinct : (listed.map Event.id).Nodup) (lists : ListsOverlaps listed pairs)
    (inside : e ∈ listed) :
    s.conflicts (.event e) = .ok (listed.filter fun f => s(e, f) ∈ unordered pairs) := by
  have answers : ∀ f ∈ listed, (if f.id = e.id then Except.ok false else f.overlaps e) =
      .ok (decide (s(e, f) ∈ unordered pairs)) := by
    intro f inside'
    by_cases same : f.id = e.id
    · obtain rfl : f = e := List.inj_on_of_nodup_map distinct inside' inside same
      simp [lists.exactly]
    · have apart : e ≠ f := by
        rintro rfl
        exact same rfl
      rw [if_neg same, Event.overlaps_of_naive (naive f inside') (naive e inside)]
      simp [lists.exactly, inside, inside', apart, Event.overlapping_comm]
  unfold conflicts
  rw [sorted]
  exact select_eq_filter answers

/-- An event has partners exactly if it occurs in a pair. -/
theorem isEmpty_partners (lists : ListsOverlaps listed pairs) (e : Event) :
    (!(listed.filter fun f => s(e, f) ∈ unordered pairs).isEmpty) =
      decide (∃ pair ∈ pairs, e = pair.1 ∨ e = pair.2) := by
  rw [Bool.eq_iff_iff]
  simp only [Bool.not_eq_true', List.isEmpty_eq_false_iff_exists_mem, List.mem_filter,
    decide_eq_true_eq]
  constructor
  · rintro ⟨f, _, partner⟩
    rcases mem_unordered_iff.mp partner with inside | inside
    · exact ⟨_, inside, .inl rfl⟩
    · exact ⟨_, inside, .inr rfl⟩
  · rintro ⟨⟨a, b⟩, inside, rfl | rfl⟩
    · exact ⟨b, (lists.inside _ inside).mem.2, mem_unordered_iff.mpr (.inl inside)⟩
    · exact ⟨a, (lists.inside _ inside).mem.1, mem_unordered_iff.mpr (.inr inside)⟩

end EventStore

end GuardedConsole
