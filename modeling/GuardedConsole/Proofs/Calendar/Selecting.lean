import GuardedConsole.Proofs.Calendar.Building
import GuardedConsole.Proofs.Calendar.Ordering

/-!
# Queries on events without offsets

An event is naive if neither its start nor its end has an offset. Naive moments compare by their
ticks, so a store of naive events can always be listed (`all_of_naive`), and a query on the listing
that never fails is a filter of it (`select_eq_filter`).
-/

namespace GuardedConsole

open Time

namespace Time.Moment

variable {a b : Moment}

theorem isBefore_of_naive (left : a.offset = none) (right : b.offset = none) :
    a.isBefore b = .ok (decide (a.ticks < b.ticks)) := by
  simp [isBefore, isBefore?, left, right]

theorem ext_of_naive (left : a.offset = none) (right : b.offset = none) (same : a.ticks = b.ticks) :
    a = b := by
  cases a
  cases b
  simp_all

end Time.Moment

namespace Event

variable {e : Event}

/-- Neither the start nor the end has an offset. -/
structure IsNaive (e : Event) : Prop where
  start : e.start.offset = none
  stop : e.stop.offset = none

instance : Decidable e.IsNaive :=
  decidable_of_iff (e.start.offset = none ∧ e.stop.offset = none)
    ⟨fun h => ⟨h.1, h.2⟩, fun h => ⟨h.start, h.stop⟩⟩

theorem IsNaive.ticks_le (naive : e.IsNaive) (timed : e.WellTimed) :
    e.start.ticks ≤ e.stop.ticks := by
  unfold WellTimed at timed
  rw [naive.start, naive.stop] at timed
  exact timed

end Event

namespace EventStore

variable {s : EventStore} {events : List Event}

theorem comparable_of_naive (naive : ∀ e ∈ events, e.IsNaive) : Comparable events := by
  intro a inside b inside'
  rw [(naive a inside).start, (naive b inside').start]

theorem all_of_naive (naive : ∀ e ∈ s.events.values, e.IsNaive) :
    ∃ listed, s.all = .ok listed ∧ InOrder s.events.values listed :=
  sortByStart_of_comparable (comparable_of_naive naive)

/-- Selecting by a test that answers for all events is filtering by its answers. -/
theorem select_eq_filter {test : Event → Except Failure Bool} {keep : Event → Bool}
    (answers : ∀ e ∈ events, test e = .ok (keep e)) :
    select test events = .ok (events.filter keep) := by
  induction events with
  | nil => rfl
  | cons e rest ih =>
    obtain ⟨first, others⟩ := List.forall_mem_cons.mp answers
    simp only [select, first, ih others, List.filter_cons]

end EventStore

end GuardedConsole
