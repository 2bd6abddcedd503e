import GuardedConsole.Proofs.Calendar.Soundness
import GuardedConsole.Proofs.Value.Tables

/-!
# Changing events

A change makes an event anew, from its own entries with others put over them. `Untouched` says which
fields stay: those that the changes do not name, and always the id.
`update_changes_only_what_it_names` shows that in every store that is `Built` from data a change
leaves these fields, the place of the event and all other events alone, and that a change which
fails leaves the whole store alone.
-/

namespace GuardedConsole

open Time

/-! ### Fields that stay -/

namespace Event

variable {e e' : Event} {now : Moment} {changed : Entries}

/-- The entries of an event with changes put over them. The id is put last. -/
def overlaid (e : Event) (changed : Entries) : Entries :=
  (e.entries.merge changed).put (.text "id".toText) (.text e.id)

/-- The fields that changes do not name are those of the event before, and so is the id. -/
structure Untouched (changed : Entries) (e e' : Event) : Prop where
  id : e'.id = e.id
  title : changed.get? "title" = none → e'.title = e.title
  start : changed.get? "start" = none → e'.start = e.start
  stop : changed.get? "end" = none → e'.stop = e.stop
  allDay : changed.get? "allDay" = none → e'.allDay = e.allDay
  description : changed.get? "description" = none → e'.description = e.description

theorem get?_overlaid {name : String} (other : "id".toText ≠ name.toText)
    (absent : changed.get? name = none) : (e.overlaid changed).get? name = e.entries.get? name := by
  have key : Value.text "id".toText ≠ .text name.toText := fun same => other (Value.text.inj same)
  exact (Entries.find?_put_of_ne key).trans (Entries.find?_merge_of_find?_none absent)

theorem untouched_of_madeOf (same : e'.id = e.id) (titled : e.title ≠ [])
    (made : MadeOf now (e.overlaid changed) e') : Untouched changed e e' where
  id := same
  title absent := made.title_eq (get?_overlaid (by decide) absent) titled
  start absent := made.start_eq (get?_overlaid (by decide) absent)
  stop absent := made.stop_eq (get?_overlaid (by decide) absent)
  allDay absent := made.allDay_eq (get?_overlaid (by decide) absent)
  description absent := made.description_eq (get?_overlaid (by decide) absent)

theorem allData_entries (e : Event) : e.entries.AllData := by
  simp only [Event.entries, Entries.allData_cons]
  exact ⟨⟨.text _, .text _⟩, ⟨.text _, .text _⟩, ⟨.text _, .moment _⟩, ⟨.text _, .moment _⟩,
    ⟨.text _, .bool _⟩, ⟨.text _, .text _⟩, Entries.allData_nil⟩

theorem allData_overlaid (e : Event) (plain : changed.AllData) : (e.overlaid changed).AllData :=
  (e.allData_entries.merge plain).put (.text _) (.text _)

end Event

namespace EventStore

variable {s : EventStore} {now : Moment} {e : Event} {key changes : Value} {changed : Entries}

/-! ### Changes -/

theorem update_of_no_data {f : Failure} (found : s.get key = .ok (some e))
    (refused : Entries.ofOptionalData changes = .error f) :
    s.update now key changes = (.error f, s) := by
  rw [update, found]
  dsimp only
  rw [refused]

theorem update_of_data (found : s.get key = .ok (some e))
    (described : Entries.ofOptionalData changes = .ok changed) :
    s.update now key changes =
      match Event.build now s.nextNumber (e.overlaid changed) with
      | (.ok e', next) => (.ok e', { nextNumber := next, events := s.events.put e.id e' })
      | (.error f, next) => (.error f, { s with nextNumber := next }) := by
  rw [update, found]
  dsimp only
  rw [described]
  rfl

/-- An event that is changed is replaced by one made of its entries with the changes put over them.
If there is no such event, the store stays as it is; no number is used in either case. -/
theorem update_cases_of_data (now : Moment) (found : s.get key = .ok (some e))
    (named : e.id ≠ []) (described : Entries.ofOptionalData changes = .ok changed) :
    (∃ e', s.update now key changes = (.ok e', { s with events := s.events.put e.id e' }) ∧
        e'.id = e.id ∧ Event.MadeOf now (e.overlaid changed) e' ∧ e'.WellTimed) ∨
      ∃ f, s.update now key changes = (.error f, s) := by
  have built : Event.build now s.nextNumber (e.overlaid changed) =
      (Event.buildWith now e.id (e.overlaid changed), s.nextNumber) := by
    rw [Event.build, Event.overlaid, Event.takeId_put named]
  rw [update_of_data found described, built]
  cases made : Event.buildWith now e.id (e.overlaid changed) with
  | error f => exact .inr ⟨f, rfl⟩
  | ok e' => exact .inl ⟨e', rfl, Event.buildWith_eq_ok_iff.mp made⟩

theorem update_eq_ok {s' : EventStore} {e' : Event} (found : s.get key = .ok (some e))
    (named : e.id ≠ []) (changedTo : s.update now key changes = (.ok e', s')) :
    ∃ changed, Entries.ofOptionalData changes = .ok changed ∧ e'.id = e.id ∧
      Event.MadeOf now (e.overlaid changed) e' ∧ e'.WellTimed ∧
      s' = { s with events := s.events.put e.id e' } := by
  cases described : Entries.ofOptionalData changes with
  | error f =>
    rw [update_of_no_data found described] at changedTo
    cases changedTo
  | ok changed =>
    rcases update_cases_of_data now found named described with
      ⟨_, whole, same, made, timed⟩ | ⟨f, failed⟩
    · rw [whole] at changedTo
      cases changedTo
      exact ⟨changed, rfl, same, made, timed, rfl⟩
    · rw [failed] at changedTo
      cases changedTo

/-! ### Stores that are built from data -/

/-- A store that comes from adding, changing and deleting with plain data, with any next number. Its
events may be exchanged for those of another such store, as undoing and redoing do. -/
inductive Built : EventStore → Prop where
  | empty (number : Nat) : Built { nextNumber := number }
  | add {s : EventStore} {v : Value} (now : Moment) : Built s → v.IsData → Built (s.add now v).2
  | update {s : EventStore} {changes : Value} (now : Moment) (key : Value) : Built s →
    changes.IsData → Built (s.update now key changes).2
  | remove {s : EventStore} (key : Value) : Built s → Built (s.remove key).2
  | clear {s : EventStore} : Built s → Built s.clear
  | restore {s s' : EventStore} : Built s → Built s' → Built { s with events := s'.events }

/-- No event has an empty title. -/
def Titled (events : Table Event) : Prop :=
  ∀ entry ∈ events, entry.2.title ≠ []

theorem Titled.put {events : Table Event} (titled : Titled events) (id : Text)
    (filled : e.title ≠ []) : Titled (events.put id e) := by
  intro entry member
  rcases Table.mem_put member with rfl | old
  · exact filled
  · exact titled entry old

theorem Built.consistent (built : s.Built) : Consistent s.events := by
  induction built with
  | empty => exact consistent_nil
  | add now _ plain ih => exact ih.add now plain
  | update now key _ _ ih => exact ih.update now key _
  | remove key _ ih => exact ih.remove key
  | clear => exact consistent_nil
  | restore _ _ _ ih => exact ih

theorem titled_add {v : Value} (titled : Titled s.events) (now : Moment) (plain : v.IsData) :
    Titled (s.add now v).2.events := by
  cases described : Entries.ofOptionalData v with
  | error f =>
    rw [add_of_no_data s now plain described]
    exact titled
  | ok data =>
    have allData := Entries.allData_of_ofOptionalData plain described
    rcases add_cases_of_data s now plain described with ⟨e, whole, _, made, _⟩ | ⟨f, whole⟩
    · rw [whole]
      exact titled.put _ (made.title_ne_nil allData)
    · rw [whole]
      exact titled

theorem titled_update (consistent : Consistent s.events) (titled : Titled s.events) (now : Moment)
    (key : Value) (plain : changes.IsData) : Titled (s.update now key changes).2.events := by
  rcases update_cases s now key changes with ⟨e, e', done, found, _⟩ | ⟨_, _, same⟩
  · obtain ⟨id, listed⟩ := mem_of_get found
    have whole : s.update now key changes = (.ok e', (s.update now key changes).2) :=
      Prod.ext done rfl
    obtain ⟨changed, described, _, made, _, after⟩ :=
      update_eq_ok found (consistent.named _ listed) whole
    have allData := Entries.allData_of_ofOptionalData plain described
    rw [after]
    exact titled.put _ (made.title_ne_nil (e.allData_overlaid allData))
  · rw [same]
    exact titled

theorem Built.titled (built : s.Built) : Titled s.events := by
  induction built with
  | empty => exact List.forall_mem_nil _
  | add now _ plain ih => exact titled_add ih now plain
  | update now key before plain ih => exact titled_update before.consistent ih now key plain
  | @remove s key _ ih =>
    rcases remove_cases s key with ⟨_, _, part⟩ | ⟨_, _, same⟩
    · exact fun entry member => ih entry (part.subset member)
    · rw [same]
      exact ih
  | clear => exact List.forall_mem_nil _
  | restore _ _ _ ih => exact ih

/-! ### What a change leaves alone -/

/-- The event under an id of a consistent table. -/
theorem get_of_mem {id : Text} (consistent : Consistent s.events) (listed : (id, e) ∈ s.events) :
    s.get (.text e.id) = .ok (some e) := by
  obtain rfl : id = e.id := consistent.own _ listed
  exact congrArg _ (Table.find?_of_mem consistent.distinct listed)

/-- In a store that is built from data, changing an event replaces it in its place by one that has
the same id and the same values in all fields that the changes do not name; a change that fails
leaves the store as it is. The dictionary of the event makes the event again. -/
theorem update_changes_only_what_it_names {id : Text} (built : s.Built)
    (listed : (id, e) ∈ s.events) (now : Moment) (changes : Value) :
    (∃ before after, s.events = before ++ (e.id, e) :: after ∧
      ((∃ changed e', Entries.ofOptionalData changes = .ok changed ∧
          s.update now (.text e.id) changes =
            (.ok e', { s with events := before ++ (e.id, e') :: after }) ∧
          Event.Untouched changed e e') ∨
        ∃ f, s.update now (.text e.id) changes = (.error f, s))) ∧
      ∀ number, Event.ofData now number (.dict e.entries) [] = (.ok e, number) := by
  have consistent := built.consistent
  have titled := built.titled _ listed
  have named := consistent.named _ listed
  have found := get_of_mem consistent listed
  obtain rfl : id = e.id := consistent.own _ listed
  obtain ⟨before, after, place, inFront, _⟩ := Table.exists_place consistent.distinct listed
  refine ⟨⟨before, after, place, ?_⟩, fun number =>
    Event.ofData_entries now number named titled (consistent.timed _ listed)⟩
  cases described : Entries.ofOptionalData changes with
  | error f => exact .inr ⟨f, update_of_no_data found described⟩
  | ok changed =>
    refine (update_cases_of_data now found named described).imp ?_ id
    rintro ⟨e', whole, same, made, _⟩
    refine ⟨changed, e', rfl, ?_, Event.untouched_of_madeOf same titled made⟩
    rw [whole, place, Table.put_place inFront]

/-- An event with an end and without a description. -/
def standup : Event where
  id := "s".toText
  title := "Standup".toText
  start := ⟨0, none, by decide⟩
  stop := ⟨0, none, by decide⟩
  allDay := false
  description := []

/-- The store with this event, made of its own entries. -/
def standupOnly : EventStore :=
  (({} : EventStore).add ⟨0, none, by decide⟩ (.dict standup.entries)).2

/-- Changes of the title and the id. -/
def retitled : Value :=
  .dict [(.text "id".toText, .text "r".toText), (.text "title".toText, .text "Review".toText)]

theorem standupOnly_built : standupOnly.Built :=
  .add _ (.empty 1) standup.allData_entries.dict

theorem standup_listed : ("s".toText, standup) ∈ standupOnly.events := by
  decide +kernel

/-- The event gets the other title, and keeps its id, its start and its end. -/
theorem update_retitled :
    let now : Moment := ⟨0, none, by decide⟩
    ∃ e' s', standupOnly.update now (.text standup.id) retitled = (.ok e', s') ∧
      e'.id = standup.id ∧ e'.start = standup.start ∧ e'.stop = standup.stop := by
  intro now
  have done : (standupOnly.update now (.text standup.id) retitled).1.isOk = true := by
    decide +kernel
  obtain ⟨⟨_, _, _, changed | ⟨f, failed⟩⟩, _⟩ :=
    update_changes_only_what_it_names standupOnly_built standup_listed now retitled
  · obtain ⟨changed, e', described, whole, untouched⟩ := changed
    cases described
    exact ⟨e', _, whole, untouched.id, untouched.start rfl, untouched.stop rfl⟩
  · rw [failed] at done
    cases done

end EventStore

end GuardedConsole
