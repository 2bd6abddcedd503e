import GuardedConsole.Calendar.Store
import GuardedConsole.Proofs.Value.Data
import GuardedConsole.Proofs.Value.Overlay

/-!
# Events made of entries

`MadeOf` says which fields the event has that entries describe, and `buildWith_eq_ok_iff` that it is
made of them exactly if it is `WellTimed`: if it does not end before it starts. The id is the one
that the entries give, or a numbered one. The entries of an event make it again.
-/

namespace GuardedConsole

open Time

namespace Event

variable {e : Event} {now m : Moment} {number : Nat} {id t : Text} {data : Entries} {v : Value}

/-- Start and end both have an offset or both have none, and the end is not before the start. -/
def WellTimed (e : Event) : Prop :=
  match e.start.offset, e.stop.offset with
  | none, none => e.start.ticks ≤ e.stop.ticks
  | some x, some y => e.start.utcTicks x ≤ e.stop.utcTicks y
  | _, _ => False

theorem wellTimed_iff : e.WellTimed ↔ e.stop.isBefore e.start = .ok false := by
  unfold WellTimed Moment.isBefore Moment.isBefore?
  cases e.start.offset <;> cases e.stop.offset <;> simp

theorem validate_eq_ok_iff : e.validate = .ok () ↔ e.WellTimed := by
  rw [wellTimed_iff, validate]
  split <;> simp_all

/-- The end of an event, given its start. -/
def stopAfter (start : Moment) : Option Moment → Except Failure Moment
  | some m => .ok m
  | none => hourAfter start

/-- The fields of an event, its id apart, are those that the entries give. -/
structure MadeOf (now : Moment) (data : Entries) (e : Event) : Prop where
  title : e.title = textOr "Untitled".toText (data.get? "title")
  start : ∃ given, takeMoment "start" data = .ok given ∧ e.start = given.getD now
  stop : ∃ given, takeMoment "end" data = .ok given ∧ stopAfter e.start given = .ok e.stop
  allDay : e.allDay = takeAllDay data
  description : e.description = textOr [] (data.get? "description")

theorem bind_ok {α β : Type} (a : α) (f : α → Except Failure β) : (Except.ok a >>= f) = f a := rfl

theorem bind_eq_ok {α β : Type} {x : Except Failure α} {f : α → Except Failure β} {b : β}
    (bound : x >>= f = .ok b) : ∃ a, x = .ok a ∧ f a = .ok b := by
  cases x with
  | error failure => cases bound
  | ok a => exact ⟨a, rfl, bound⟩

theorem validated {event : Event} (made : (do event.validate; return event) = .ok e) :
    event = e ∧ e.WellTimed := by
  obtain ⟨_, valid, made⟩ := bind_eq_ok made
  cases made
  exact ⟨rfl, validate_eq_ok_iff.mp valid⟩

theorem buildWith_eq_ok_iff :
    buildWith now id data = .ok e ↔ e.id = id ∧ MadeOf now data e ∧ e.WellTimed := by
  constructor
  · intro built
    unfold buildWith at built
    obtain ⟨start, begins, built⟩ := bind_eq_ok built
    obtain ⟨given, ends, built⟩ := bind_eq_ok built
    cases given with
    | some stop =>
      obtain ⟨rfl, timed⟩ := validated built
      exact ⟨rfl, ⟨rfl, ⟨start, begins, rfl⟩, ⟨some stop, ends, rfl⟩, rfl, rfl⟩, timed⟩
    | none =>
      obtain ⟨stop, later, built⟩ := bind_eq_ok built
      obtain ⟨rfl, timed⟩ := validated built
      exact ⟨rfl, ⟨rfl, ⟨start, begins, rfl⟩, ⟨none, ends, later⟩, rfl, rfl⟩, timed⟩
  · rintro ⟨rfl, made, timed⟩
    obtain ⟨title, ⟨start, begins, from_start⟩, ⟨given, ends, to_stop⟩, allDay, description⟩ := made
    obtain ⟨id, _, _, stop, _, _⟩ := e
    dsimp only at title from_start to_stop allDay description
    subst title from_start allDay description
    have valid := validate_eq_ok_iff.mpr timed
    unfold buildWith
    rw [begins, ends, bind_ok, bind_ok]
    cases given with
    | some m =>
      cases to_stop
      dsimp only
      rw [pure_bind, valid]
      rfl
    | none =>
      have later : hourAfter (start.getD now) = .ok stop := to_stop
      dsimp only
      rw [later, bind_ok, valid]
      rfl

/-! ### The id -/

/-- The entries have no id that counts as true. -/
def Unnamed (data : Entries) : Prop :=
  ∀ v, data.get? "id" = some v → v.isTruthy = false

theorem takeId_of_truthy (given : data.get? "id" = some v) (truthy : v.isTruthy = true) :
    takeId number data = (v.shown, number) := by
  simp only [takeId, given, truthy, if_true]

theorem takeId_of_unnamed (unnamed : Unnamed data) :
    takeId number data = (numberedId number, number + 1) := by
  unfold takeId
  split
  · rename_i v given
    rw [if_neg (by simp [unnamed v given])]
  · rfl

/-- No id is empty. -/
theorem takeId_ne_nil (described : data.AllData) : (takeId number data).1 ≠ [] := by
  have numbered : numberedId number ≠ [] := by simp [numberedId, String.toText]
  unfold takeId
  split
  · rename_i v found
    split
    · rename_i truthy
      exact Value.shown_ne_nil (described.find? found) truthy
    · exact numbered
  · exact numbered

/-- An id that is put in last is the id that counts. -/
theorem takeId_put (named : id ≠ []) :
    takeId number (data.put (.text "id".toText) (.text id)) = (id, number) := by
  have found : (data.put (.text "id".toText) (.text id)).get? "id" = some (.text id) :=
    Entries.find?_put_text _ _ data
  have truthy : (Value.text id).isTruthy = true := by simpa [Value.isTruthy] using named
  exact takeId_of_truthy found truthy

/-! ### Fields that are given -/

namespace MadeOf

theorem title_eq (made : MadeOf now data e) (given : data.get? "title" = some (.text t))
    (filled : t ≠ []) : e.title = t := by
  have truthy : (Value.text t).isTruthy = true := by simpa [Value.isTruthy] using filled
  rw [made.title, given, textOr, if_pos truthy, Value.shown]

theorem start_eq (made : MadeOf now data e) (given : data.get? "start" = some (.moment m)) :
    e.start = m := by
  obtain ⟨start, begins, same⟩ := made.start
  rw [takeMoment, given] at begins
  cases begins
  exact same

theorem stop_eq (made : MadeOf now data e) (given : data.get? "end" = some (.moment m)) :
    e.stop = m := by
  obtain ⟨stop, ends, same⟩ := made.stop
  rw [takeMoment, given] at ends
  cases ends
  exact (Except.ok.inj same).symm

theorem allDay_eq {b : Bool} (made : MadeOf now data e)
    (given : data.get? "allDay" = some (.bool b)) : e.allDay = b := by
  rw [made.allDay, takeAllDay, given]
  cases b <;> rfl

theorem description_eq (made : MadeOf now data e)
    (given : data.get? "description" = some (.text t)) : e.description = t := by
  rw [made.description, given, textOr]
  split
  · rfl
  · rename_i empty
    have nothing : t = [] := by simpa [Value.isTruthy] using empty
    exact nothing.symm

/-- No event has an empty title. -/
theorem title_ne_nil (made : MadeOf now data e) (plain : data.AllData) : e.title ≠ [] := by
  have untitled : "Untitled".toText ≠ [] := by decide
  rw [made.title]
  unfold textOr
  split
  · rename_i v given
    split
    · rename_i truthy
      exact Value.shown_ne_nil (plain.find? given) truthy
    · exact untitled
  · exact untitled

end MadeOf

theorem madeOf_entries (now : Moment) (titled : e.title ≠ []) : MadeOf now e.entries e where
  title := by
    have given : e.entries.get? "title" = some (.text e.title) := rfl
    have truthy : (Value.text e.title).isTruthy = true := by simpa [Value.isTruthy] using titled
    rw [given, textOr, if_pos truthy, Value.shown]
  start := ⟨some e.start, rfl, rfl⟩
  stop := ⟨some e.stop, rfl, rfl⟩
  allDay := by
    have given : e.entries.get? "allDay" = some (.bool e.allDay) := rfl
    rw [takeAllDay, given]
    cases e.allDay <;> rfl
  description := by
    have given : e.entries.get? "description" = some (.text e.description) := rfl
    rw [given, textOr]
    split
    · rfl
    · rename_i empty
      simpa [Value.isTruthy] using empty

/-- The entries of an event make the event again, and use no number. -/
theorem build_entries (now : Moment) (number : Nat) (named : e.id ≠ []) (titled : e.title ≠ [])
    (timed : e.WellTimed) : build now number e.entries = (.ok e, number) := by
  have given : e.entries.get? "id" = some (.text e.id) := rfl
  have truthy : (Value.text e.id).isTruthy = true := by simpa [Value.isTruthy] using named
  have built : buildWith now e.id e.entries = .ok e :=
    buildWith_eq_ok_iff.mpr ⟨rfl, madeOf_entries now titled, timed⟩
  rw [build, takeId_of_truthy given truthy]
  exact congrArg (fun result => (result, number)) built

/-- The dictionary of an event makes the event again. -/
theorem ofData_entries (now : Moment) (number : Nat) (named : e.id ≠ []) (titled : e.title ≠ [])
    (timed : e.WellTimed) : ofData now number (.dict e.entries) [] = (.ok e, number) :=
  build_entries now number named titled timed

end Event

/-! ### Adding -/

namespace EventStore

variable {s : EventStore} {now : Moment} {v : Value} {e : Event} {data : Entries}

theorem add_of_isData (s : EventStore) (now : Moment) (plain : v.IsData) :
    s.add now v =
      match Event.ofData now s.nextNumber v [] with
      | (.ok e, next) => (.ok e, { events := s.events.put e.id e, nextNumber := next })
      | (.error f, next) => (.error f, { s with nextNumber := next }) := by
  unfold add
  split
  · cases plain
  · have made : s.make now v [] = ((Event.ofData now s.nextNumber v []).1,
        { s with nextNumber := (Event.ofData now s.nextNumber v []).2 }) := rfl
    rw [made]
    generalize Event.ofData now s.nextNumber v [] = result
    obtain ⟨f | e, next⟩ := result <;> rfl

/-- Adding data puts the event that is made of them under its id, or fails; a number that was taken
is used up in both cases. -/
theorem add_cases_of_data (s : EventStore) (now : Moment) (plain : v.IsData)
    (described : Entries.ofOptionalData v = .ok data) :
    (∃ e, s.add now v =
          (.ok e, ⟨s.events.put e.id e, (Event.takeId s.nextNumber data).2⟩) ∧
        e.id = (Event.takeId s.nextNumber data).1 ∧ Event.MadeOf now data e ∧ e.WellTimed) ∨
      ∃ f, s.add now v = (.error f, ⟨s.events, (Event.takeId s.nextNumber data).2⟩) := by
  have made : Event.ofData now s.nextNumber v [] =
      (Event.buildWith now (Event.takeId s.nextNumber data).1 data,
        (Event.takeId s.nextNumber data).2) := by
    rw [Event.ofData, described]
    rfl
  rw [add_of_isData s now plain, made]
  cases built : Event.buildWith now (Event.takeId s.nextNumber data).1 data with
  | error f => exact .inr ⟨f, rfl⟩
  | ok e => exact .inl ⟨e, rfl, Event.buildWith_eq_ok_iff.mp built⟩

theorem add_of_no_data {f : Failure} (s : EventStore) (now : Moment) (plain : v.IsData)
    (refused : Entries.ofOptionalData v = .error f) : s.add now v = (.error f, s) := by
  rw [add_of_isData s now plain, Event.ofData, refused]

theorem add_eq_ok {s' : EventStore} (plain : v.IsData) (added : s.add now v = (.ok e, s')) :
    ∃ data, Entries.ofOptionalData v = .ok data ∧ e.id = (Event.takeId s.nextNumber data).1 ∧
      Event.MadeOf now data e ∧ e.WellTimed ∧
      s' = ⟨s.events.put e.id e, (Event.takeId s.nextNumber data).2⟩ := by
  cases described : Entries.ofOptionalData v with
  | error f =>
    rw [add_of_no_data s now plain described] at added
    cases added
  | ok data =>
    rcases add_cases_of_data s now plain described with ⟨_, whole, named, made, timed⟩ | ⟨f, failed⟩
    · rw [whole] at added
      cases added
      exact ⟨data, rfl, named, made, timed, rfl⟩
    · rw [failed] at added
      cases added

end EventStore

end GuardedConsole
