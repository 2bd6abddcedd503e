import GuardedConsole.Proofs.Calendar.Arguments
import GuardedConsole.Proofs.Calendar.Building
import GuardedConsole.Proofs.Calendar.History

/-!
# Calendars in good order

A table of events is `Consistent` if each stands under its own id and is well timed, and a calendar
`Sound` if its events and all that its history keeps are consistent, the history is bounded, the view
is one of the four and the time zone a text. Every method that is called with plain data keeps a
calendar sound.
-/

namespace GuardedConsole

open Time

/-! ### Stores -/

namespace EventStore

variable {events : Table Event} {e : Event} {now : Moment} {v key changes : Value}
  {s : EventStore}

/-- Every event stands under its own id, no id comes twice, and every event is well timed. -/
structure Consistent (events : Table Event) : Prop where
  distinct : events.names.Nodup
  own : ∀ entry ∈ events, entry.1 = entry.2.id
  named : ∀ entry ∈ events, entry.2.id ≠ []
  timed : ∀ entry ∈ events, entry.2.WellTimed

theorem consistent_nil : Consistent [] :=
  ⟨List.nodup_nil, List.forall_mem_nil _, List.forall_mem_nil _, List.forall_mem_nil _⟩

theorem Consistent.put (consistent : Consistent events) (named : e.id ≠ [])
    (timed : e.WellTimed) : Consistent (events.put e.id e) where
  distinct := Table.nodup_names_put e.id e consistent.distinct
  own entry member := by
    rcases Table.mem_put member with rfl | old
    · rfl
    · exact consistent.own entry old
  named entry member := by
    rcases Table.mem_put member with rfl | old
    · exact named
    · exact consistent.named entry old
  timed entry member := by
    rcases Table.mem_put member with rfl | old
    · exact timed
    · exact consistent.timed entry old

theorem Consistent.sublist {kept : Table Event} (consistent : Consistent events)
    (part : kept.Sublist events) : Consistent kept where
  distinct := consistent.distinct.sublist (part.map Prod.fst)
  own entry member := consistent.own entry (part.subset member)
  named entry member := consistent.named entry (part.subset member)
  timed entry member := consistent.timed entry (part.subset member)

theorem mem_of_get (found : s.get key = .ok (some e)) : ∃ id, (id, e) ∈ s.events := by
  unfold EventStore.get at found
  split at found
  · cases found
  · split at found
    · exact ⟨_, Table.mem_of_find? (Except.ok.inj found)⟩
    · cases found

/-- Adding data either puts the event that they describe under its id, or fails and leaves the
events alone. -/
theorem add_cases (s : EventStore) (now : Moment) (plain : v.IsData) :
    (∃ e, (s.add now v).1 = .ok e ∧ (s.add now v).2.events = s.events.put e.id e ∧
        e.id ≠ [] ∧ e.WellTimed) ∨
      ∃ f, (s.add now v).1 = .error f ∧ (s.add now v).2.events = s.events := by
  cases described : Entries.ofOptionalData v with
  | error f => exact .inr ⟨f, by rw [add_of_no_data s now plain described], by
      rw [add_of_no_data s now plain described]⟩
  | ok data =>
    have allData := Entries.allData_of_ofOptionalData plain described
    rcases add_cases_of_data s now plain described with ⟨e, whole, named, _, timed⟩ | ⟨f, whole⟩
    · rw [whole]
      exact .inl ⟨e, rfl, rfl, named ▸ Event.takeId_ne_nil allData, timed⟩
    · rw [whole]
      exact .inr ⟨f, rfl, rfl⟩

/-- Changing an event either puts another one with the same id in its place, or fails and leaves
the events alone. -/
theorem update_cases (s : EventStore) (now : Moment) (key changes : Value) :
    (∃ e e', (s.update now key changes).1 = .ok e' ∧ s.get key = .ok (some e) ∧
        (s.update now key changes).2.events = s.events.put e.id e' ∧
        (e.id ≠ [] → e'.id = e.id) ∧ e'.WellTimed) ∨
      ∃ f, (s.update now key changes).1 = .error f ∧
        (s.update now key changes).2.events = s.events := by
  unfold update
  split
  · exact .inr ⟨_, rfl, rfl⟩
  · exact .inr ⟨_, rfl, rfl⟩
  · rename_i e found
    split
    · exact .inr ⟨_, rfl, rfl⟩
    · rename_i changed _
      dsimp only
      split
      · rename_i e' next built
        obtain ⟨same, _, timed⟩ := Event.buildWith_eq_ok_iff.mp (congrArg Prod.fst built)
        exact .inl ⟨e, e', rfl, found, rfl,
          fun named => same.trans (congrArg Prod.fst (Event.takeId_put named)), timed⟩
      · exact .inr ⟨_, rfl, rfl⟩

/-- Deleting keeps all other events in their order, and changes nothing if it fails. -/
theorem remove_cases (s : EventStore) (key : Value) :
    (∃ b, (s.remove key).1 = .ok b ∧ (s.remove key).2.events.Sublist s.events) ∨
      ∃ f, (s.remove key).1 = .error f ∧ (s.remove key).2 = s := by
  unfold remove
  split
  · exact .inl ⟨_, rfl, .refl _⟩
  · split
    · exact .inr ⟨_, rfl, rfl⟩
    · split
      · exact .inl ⟨_, rfl, Table.erase_sublist _ _⟩
      · exact .inl ⟨_, rfl, .refl _⟩

theorem Consistent.add (consistent : Consistent s.events) (now : Moment) (plain : v.IsData) :
    Consistent (s.add now v).2.events := by
  rcases add_cases s now plain with ⟨e, _, after, named, timed⟩ | ⟨_, _, after⟩
  · rw [after]
    exact consistent.put named timed
  · rw [after]
    exact consistent

theorem Consistent.update (consistent : Consistent s.events) (now : Moment) (key changes : Value) :
    Consistent (s.update now key changes).2.events := by
  rcases update_cases s now key changes with ⟨e, e', _, found, after, same, timed⟩ | ⟨_, _, after⟩
  · obtain ⟨id, inside⟩ := mem_of_get found
    have named := consistent.named _ inside
    rw [after, ← same named]
    exact consistent.put (by rw [same named]; exact named) timed
  · rw [after]
    exact consistent

theorem Consistent.remove (consistent : Consistent s.events) (key : Value) :
    Consistent (s.remove key).2.events := by
  rcases remove_cases s key with ⟨_, _, part⟩ | ⟨_, _, same⟩
  · exact consistent.sublist part
  · rw [same]
    exact consistent

end EventStore

/-! ### Calendars -/

namespace Calendar

open EventStore

variable {c : Calendar} {now : Moment} {arguments : List Value} {change : Change}

/-- All states of a history are consistent, and there are never more than fifty of them. -/
structure Tidy (h : UndoHistory (Table Event)) : Prop where
  past : ∀ events ∈ h.past, Consistent events
  future : ∀ events ∈ h.future, Consistent events
  limited : h.limit = 50
  bounded : h.past.length + h.future.length ≤ 50

/-- The events are consistent, now and in the history, the view is one that the calendar has, and the
time zone is a text. -/
structure Sound (c : Calendar) : Prop where
  store : Consistent c.store.events
  history : Tidy c.history
  view : ∃ name ∈ views, c.view = .text name
  timezone : ∃ t, c.timezone = .text t

theorem sound_fresh (now : Moment) : ({ currentDate := some now } : Calendar).Sound where
  store := consistent_nil
  history := ⟨List.forall_mem_nil _, List.forall_mem_nil _, rfl, by simp⟩
  view := ⟨"month".toText, by decide, rfl⟩
  timezone := ⟨"UTC".toText, rfl⟩

/-! #### The history -/

theorem Tidy.limits {h : UndoHistory (Table Event)} (tidy : Tidy h) : h.Limited 50 :=
  ⟨tidy.limited, tidy.bounded⟩

theorem Tidy.snapshot {h : UndoHistory (Table Event)} {events : Table Event} (tidy : Tidy h)
    (consistent : Consistent events) : Tidy (h.snapshot events) := by
  have limits : (h.snapshot events).Limited 50 := tidy.limits.snapshot (by decide) events
  refine ⟨fun state member => ?_, List.forall_mem_nil _, limits.limit, limits.bounded⟩
  rw [UndoHistory.past_snapshot tidy.limits.limit (by decide)] at member
  rcases List.mem_cons.mp (List.mem_of_mem_take member) with rfl | old
  · exact consistent
  · exact tidy.past state old

/-- Undoing and redoing exchange the events for others of the history. -/
theorem Tidy.run {h : UndoHistory (Table Event)} {events : Table Event} (tidy : Tidy h)
    (consistent : Consistent events) (m : HistoryMethod) :
    Consistent (m.run h events).2.1 ∧ Tidy (m.run h events).2.2 := by
  have limits : (m.run h events).2.2.Limited 50 := tidy.limits.run (by decide) m events
  obtain ⟨past, future, limit⟩ := h
  cases m with
  | snapshot => exact ⟨consistent, tidy.snapshot consistent⟩
  | undo =>
    cases past with
    | nil => exact ⟨consistent, tidy⟩
    | cons state past =>
      obtain ⟨first, others⟩ := List.forall_mem_cons.mp tidy.past
      exact ⟨first, others, List.forall_mem_cons.mpr ⟨consistent, tidy.future⟩, limits.limit,
        limits.bounded⟩
  | redo =>
    cases future with
    | nil => exact ⟨consistent, tidy⟩
    | cons state future =>
      obtain ⟨first, others⟩ := List.forall_mem_cons.mp tidy.future
      exact ⟨first, List.forall_mem_cons.mpr ⟨consistent, tidy.past⟩, others, limits.limit,
        limits.bounded⟩
  | canUndo | canRedo | getUndoCount | getRedoCount => exact ⟨consistent, tidy⟩

/-! #### Methods -/

theorem Sound.snapshot (sound : c.Sound) : c.snapshot.Sound where
  store := sound.store
  history := sound.history.snapshot sound.store
  view := sound.view
  timezone := sound.timezone

theorem Sound.withStore (sound : c.Sound) {s : EventStore} (consistent : Consistent s.events) :
    Sound { c with store := s } where
  store := consistent
  history := sound.history
  view := sound.view
  timezone := sound.timezone

theorem Sound.withDate (sound : c.Sound) (date : Option Moment) :
    Sound { c with currentDate := date } where
  store := sound.store
  history := sound.history
  view := sound.view
  timezone := sound.timezone

theorem Sound.navigate (sound : c.Sound) (back : Bool) : (c.navigate back).2.Sound := by
  unfold Calendar.navigate
  split
  · exact sound
  · split
    · exact sound.withDate _
    · exact sound

theorem Sound.run (sound : c.Sound) (now : Moment) (m : Method)
    (plain : ∀ v ∈ arguments, v.IsData) : (c.run now m arguments).2.Sound := by
  cases m with
  | addEvent =>
    exact sound.snapshot.withStore (sound.store.add now (isData_argument plain 0))
  | updateEvent => exact sound.snapshot.withStore (sound.store.update now _ _)
  | removeEvent => exact sound.snapshot.withStore (sound.store.remove _)
  | setView =>
    unfold Calendar.run
    dsimp only
    split
    · rename_i listed
      obtain ⟨name, inside, same⟩ := List.any_eq_true.mp listed
      exact ⟨sound.store, sound.history, ⟨name, inside, Value.sameKey_text_iff.mp same⟩, sound.timezone⟩
    · exact sound
  | next => exact sound.navigate false
  | previous => exact sound.navigate true
  | today => exact sound.withDate _
  | setCurrentDate =>
    unfold Calendar.run
    dsimp only
    split
    · exact sound.withDate _
    · exact sound
  | setTimezone => exact ⟨sound.store, sound.history, sound.view, ⟨_, rfl⟩⟩
  | getEvents | getEventById | getEventsForDate | getEventsInRange | detectConflicts | getView
  | getCurrentDate | getTimezone => exact sound

theorem Sound.runStore (sound : c.Sound) (now : Moment) (m : StoreMethod)
    (plain : ∀ v ∈ arguments, v.IsData) : (c.runStore now m arguments).2.Sound := by
  cases m with
  | add => exact sound.withStore (sound.store.add now (isData_argument plain 0))
  | update => exact sound.withStore (sound.store.update now _ _)
  | remove => exact sound.withStore (sound.store.remove _)
  | clear => exact sound.withStore consistent_nil
  | get | getAll | getByDate | getByDateRange | getStats | hasConflicts | getConflicts =>
    exact sound

theorem Sound.runHistory (sound : c.Sound) (m : HistoryMethod) : (c.runHistory m).2.Sound := by
  obtain ⟨consistent, tidy⟩ := sound.history.run sound.store m
  exact ⟨consistent, tidy, sound.view, sound.timezone⟩

theorem Sound.checked (sound : c.Sound) (changed : change.2.Sound) (owner : String)
    (form : String × List String) : (c.checked owner form arguments change).2.Sound := by
  unfold Calendar.checked
  split
  · exact changed
  · exact sound

end Calendar

end GuardedConsole
