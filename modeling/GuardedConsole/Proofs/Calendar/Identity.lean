import GuardedConsole.Proofs.Calendar.Becoming
import GuardedConsole.Proofs.Calendar.Updating

/-!
# Ids of events

An event that is added without an id gets the next number as its id. Nothing keeps this id for it:
data may name an event like that (`ClaimsNumber`), and only while none do are all numbered ids below
the next number (`Numbered`) and the new one not taken. An event that is added with an id stands
under the text of it: it is `FoundUnder` that text, and an id that is a number is `Missed`.
-/

namespace GuardedConsole

open Time

namespace Event

variable {v : Value} {data : Entries} {number : Nat}

theorem numberedId_inj {a b : Nat} (same : numberedId a = numberedId b) : a = b := by
  have digits : Number.natText a = Number.natText b := List.append_cancel_left same
  rw [← Number.ofDigits_natText a, digits, Number.ofDigits_natText]

/-- The value describes an event and gives it one of the numbered ids. -/
def ClaimsNumber (v : Value) : Prop :=
  ∃ data id number, Entries.ofOptionalData v = .ok data ∧ data.get? "id" = some id ∧
    id.isTruthy = true ∧ id.shown = numberedId number

theorem takeId_cases (number : Nat) (data : Entries) :
    (∃ id, data.get? "id" = some id ∧ id.isTruthy = true ∧
        takeId number data = (id.shown, number)) ∨
      Unnamed data ∧ takeId number data = (numberedId number, number + 1) := by
  by_cases unnamed : Unnamed data
  · exact .inr ⟨unnamed, takeId_of_unnamed unnamed⟩
  · simp only [Unnamed, not_forall, Bool.not_eq_false] at unnamed
    obtain ⟨id, given, truthy⟩ := unnamed
    exact .inl ⟨id, given, truthy, takeId_of_truthy given truthy⟩

/-- Data that claim no number use no numbered id, or use the next number up. -/
theorem lt_of_takeId {k : Nat} (described : Entries.ofOptionalData v = .ok data)
    (free : ¬ClaimsNumber v) (taken : (takeId number data).1 = numberedId k) :
    k < (takeId number data).2 := by
  rcases takeId_cases number data with ⟨id, given, truthy, whole⟩ | ⟨_, whole⟩
  · rw [whole] at taken
    exact (free ⟨data, id, k, described, given, truthy, taken⟩).elim
  · rw [whole] at taken ⊢
    rw [← numberedId_inj taken]
    exact Nat.lt_succ_self number

end Event

namespace EventStore

variable {s s' : EventStore} {e : Event} {now : Moment} {v : Value} {data : Entries}
  {number : Nat} {events : Table Event}

/-! ### Numbered ids -/

/-- The events are consistent, and all numbered ids are below the next number. -/
structure Numbered (number : Nat) (events : Table Event) : Prop where
  consistent : Consistent events
  below : ∀ k, Event.numberedId k ∈ events.names → k < number

theorem Numbered.fresh (numbered : Numbered number events) :
    Event.numberedId number ∉ events.names :=
  fun taken => Nat.lt_irrefl number (numbered.below number taken)

theorem Numbered.later {later : Nat} (numbered : Numbered number events)
    (grown : number ≤ later) : Numbered later events :=
  ⟨numbered.consistent, fun k listed => (numbered.below k listed).trans_le grown⟩

theorem Numbered.add (numbered : Numbered s.nextNumber s.events) (now : Moment) (plain : v.IsData)
    (free : ¬Event.ClaimsNumber v) :
    Numbered (s.add now v).2.nextNumber (s.add now v).2.events := by
  refine ⟨numbered.consistent.add now plain, fun k listed => ?_⟩
  cases described : Entries.ofOptionalData v with
  | error f =>
    rw [add_of_no_data s now plain described] at listed ⊢
    exact numbered.below k listed
  | ok data =>
    have grown := Event.takeId_number_le s.nextNumber data
    rcases add_cases_of_data s now plain described with ⟨e, whole, named, _⟩ | ⟨f, whole⟩
    · rw [whole] at listed ⊢
      rcases Table.mem_names_of_put listed with same | old
      · exact Event.lt_of_takeId described free (named.symm.trans same.symm)
      · exact (numbered.below k old).trans_le grown
    · rw [whole] at listed ⊢
      exact (numbered.below k listed).trans_le grown

/-- A change keeps the ids. -/
theorem Numbered.update (numbered : Numbered s.nextNumber s.events) (now : Moment)
    (key changes : Value) :
    Numbered (s.update now key changes).2.nextNumber (s.update now key changes).2.events := by
  have grown := number_le_update s now key changes
  refine ⟨numbered.consistent.update now key changes, fun k listed => ?_⟩
  refine (numbered.below k ?_).trans_le grown
  rcases update_cases s now key changes with ⟨e, e', _, found, after, _⟩ | ⟨_, _, after⟩
  · rw [after] at listed
    rcases Table.mem_names_of_put listed with same | old
    · -- the changed event is put under the id of the one before, which is among the names already
      obtain ⟨id, stored⟩ := mem_of_get found
      obtain rfl : id = e.id := numbered.consistent.own _ stored
      rw [same]
      exact List.mem_map.mpr ⟨_, stored, rfl⟩
    · exact old
  · rwa [after] at listed

theorem Numbered.remove (numbered : Numbered s.nextNumber s.events) (key : Value) :
    Numbered s.nextNumber (s.remove key).2.events := by
  refine ⟨numbered.consistent.remove key, fun k listed => numbered.below k ?_⟩
  rcases remove_cases s key with ⟨_, _, part⟩ | ⟨_, _, same⟩
  · exact (part.map Prod.fst).subset listed
  · rwa [same] at listed

theorem numbered_invariant :
    Calendar.StoreInvariant Numbered fun v => v.IsData ∧ ¬Event.ClaimsNumber v where
  null := by
    refine ⟨.null, ?_⟩
    rintro ⟨data, id, number, described, given, _⟩
    cases described
    cases given
  empty _ := ⟨consistent_nil, fun _ listed => nomatch listed⟩
  later grown numbered := numbered.later grown
  add now numbered given := numbered.add now given.1 given.2
  update now key numbered _ := numbered.update now key _
  remove key numbered := numbered.remove key

theorem built_invariant :
    Calendar.StoreInvariant (fun _ events => ∃ s : EventStore, s.Built ∧ s.events = events)
      Value.IsData where
  null := .null
  empty number := ⟨_, .empty number, rfl⟩
  later _ good := good
  add := by
    rintro ⟨_, number⟩ v now ⟨s, built, rfl⟩ plain
    exact ⟨_, .add now (.restore (.empty number) built) plain, rfl⟩
  update := by
    rintro ⟨_, number⟩ changes now key ⟨s, built, rfl⟩ plain
    exact ⟨_, .update now key (.restore (.empty number) built) plain, rfl⟩
  remove := by
    rintro ⟨_, number⟩ key ⟨s, built, rfl⟩
    exact ⟨_, .remove key (.restore (.empty number) built), rfl⟩

/-! ### Adding without an id -/

/-- An event that is added without an id has the next number. It comes behind the others if no event
has this id, and takes the place of the one that has it otherwise. -/
theorem add_unnamed (consistent : Consistent s.events) (plain : v.IsData)
    (described : Entries.ofOptionalData v = .ok data) (unnamed : Event.Unnamed data)
    (added : s.add now v = (.ok e, s')) :
    e.id = Event.numberedId s.nextNumber ∧
      (e.id ∉ s.events.names → s'.events = s.events ++ [(e.id, e)]) ∧
      (e.id ∈ s.events.names → ∃ before lost after, s.events = before ++ (e.id, lost) :: after ∧
        s'.events = before ++ (e.id, e) :: after) := by
  obtain ⟨_, same, named, _, _, rfl⟩ := add_eq_ok plain added
  rw [described] at same
  cases same
  rw [Event.takeId_of_unnamed unnamed] at named
  refine ⟨named, fun new => Table.put_of_not_mem new e, fun taken => ?_⟩
  obtain ⟨⟨_, lost⟩, listed, rfl⟩ := List.mem_map.mp taken
  obtain ⟨before, after, place, inFront, _⟩ := Table.exists_place consistent.distinct listed
  refine ⟨before, lost, after, place, ?_⟩
  change s.events.put _ e = _
  rw [place, Table.put_place inFront]

/-! ### Adding with an id -/

theorem get_put_of_ne {key : Value} (other : key ≠ .text e.id) :
    (s.put e).get key = s.get key := by
  unfold EventStore.get EventStore.put
  cases key with
  | text id =>
    have differs : e.id ≠ id := fun same => other (congrArg Value.text same.symm)
    simp only [Table.find_put, if_neg differs]
  | _ => rfl

/-- An event that is added with an id stands under the text of it, and nothing else is found anew. -/
theorem add_named {id : Value} (plain : v.IsData)
    (described : Entries.ofOptionalData v = .ok data) (given : data.get? "id" = some id)
    (truthy : id.isTruthy = true) (added : s.add now v = (.ok e, s')) :
    e.id = id.shown ∧ e.title ≠ [] ∧ (e.id, e) ∈ s'.events ∧
      ∀ key, key ≠ .text e.id → s'.get key = s.get key := by
  obtain ⟨_, same, named, made, _, rfl⟩ := add_eq_ok plain added
  rw [described] at same
  cases same
  rw [Event.takeId_of_truthy given truthy] at named
  have found : (s.events.put e.id e).find? e.id = some e := by rw [Table.find_put, if_pos rfl]
  exact ⟨named, made.title_ne_nil (Entries.allData_of_ofOptionalData plain described),
    Table.mem_of_find? found, fun key other => get_put_of_ne other⟩

end EventStore

/-! ### Finding under an id -/

namespace Calendar

open EventStore

variable {c c' : Calendar} {now : Moment} {e : Event} {v key answer : Value}

/-- What counts as an id: a text that is not empty, or a number that is not zero. -/
inductive IsId : Value → Prop where
  | text {t : Text} : t ≠ [] → IsId (.text t)
  | int {i : Int} : i ≠ 0 → IsId (.int i)
  | float {x : Number.Binary64} : x.isZero = false → IsId (.float x)

theorem IsId.isTruthy (counts : IsId v) : v.isTruthy = true := by
  cases counts with
  | text filled => simpa [Value.isTruthy] using filled
  | int nonzero => simpa [Value.isTruthy] using nonzero
  | float nonzero => simp [Value.isTruthy, nonzero]

/-- Under the key the event is found, changed and deleted. Deleting takes its entry out. -/
structure FoundUnder (c : Calendar) (key : Value) (e : Event) : Prop where
  get : ∀ now, (c.call now .getEventById [key]).1 = .ok (.event e)
  update : ∀ now, (c.call now .updateEvent [key, .dict []]).1 = .ok (.event e)
  remove : ∃ before after, c.store.events = before ++ (e.id, e) :: after ∧
    ∀ now, c.callStore now .remove [key] =
      (.ok (.bool true), { c with store := { c.store with events := before ++ after } })

/-- Under the key nothing is found, changed or deleted. -/
structure Missed (c : Calendar) (key : Value) : Prop where
  get : ∀ now, (c.call now .getEventById [key]).1 = .ok .null
  update : ∀ now, (c.call now .updateEvent [key, .dict []]).1 = .error (noEvent key)
  remove : ∀ now, c.callStore now .remove [key] = (.ok (.bool false), c)

theorem call_getEventById (c : Calendar) (now : Moment) (key : Value) :
    c.call now .getEventById [key] = c.answer ofEvent? (c.store.get key) :=
  checked_of_length_eq c _ _ rfl

theorem call_updateEvent (c : Calendar) (now : Moment) (key changes : Value) :
    c.call now .updateEvent [key, changes] =
      c.snapshot.change Value.event (c.store.update now key changes) :=
  checked_of_length_eq c _ _ rfl

theorem call_addEvent (c : Calendar) (now : Moment) (data : Value) :
    c.call now .addEvent [data] = c.snapshot.change Value.event (c.store.add now data) :=
  checked_of_length_eq c _ _ rfl

theorem callStore_add (c : Calendar) (now : Moment) (data : Value) :
    c.callStore now .add [data] = c.change Value.event (c.store.add now data) :=
  checked_of_length_eq c _ _ rfl

theorem callStore_remove (c : Calendar) (now : Moment) (key : Value) :
    c.callStore now .remove [key] = c.change Value.bool (c.store.remove key) :=
  checked_of_length_eq c _ _ rfl

/-- What is answered to a change of the store is an event that the store gives. -/
theorem change_event_eq_ok {result : Except Failure Event × EventStore}
    (changed : c.change Value.event result = (.ok answer, c')) :
    ∃ e, result.1 = .ok e ∧ answer = .event e ∧ c' = { c with store := result.2 } := by
  obtain ⟨f | e, s'⟩ := result
  · cases changed
  · cases changed
    exact ⟨e, rfl, rfl, rfl⟩

/-- Every event that is stored is found under its id. -/
theorem foundUnder_id {id : Text} (consistent : Consistent c.store.events)
    (listed : (id, e) ∈ c.store.events) (titled : e.title ≠ []) :
    FoundUnder c (.text e.id) e := by
  have found := get_of_mem consistent listed
  have again (now : Moment) := Event.build_entries now c.store.nextNumber
    (consistent.named _ listed) titled (consistent.timed _ listed)
  obtain rfl : id = e.id := consistent.own _ listed
  obtain ⟨before, after, place, inFront, behind⟩ := Table.exists_place consistent.distinct listed
  refine ⟨fun now => ?_, fun now => ?_, before, after, place, fun now => ?_⟩
  · rw [call_getEventById, found]
    rfl
  · have unchanged : e.overlaid [] = e.entries := rfl
    rw [call_updateEvent, update_of_data found rfl, unchanged, again]
    rfl
  · have stored : c.store.events.isEmpty = false := by rw [place]; simp
    have shown := Table.find?_of_mem consistent.distinct listed
    have gone : Table.erase e.id c.store.events = before ++ after := by
      rw [place, Table.erase_place inFront behind]
    have removed : c.store.remove (.text e.id) =
        (.ok true, { c.store with events := before ++ after }) := by
      simp only [EventStore.remove, stored, shown, gone, Value.checkHashable, Value.unhashable?]
      rfl
    rw [callStore_remove, removed]
    rfl

/-- A number is no key of the store. -/
theorem missed_of_number (c : Calendar) (counts : IsId key) (number : ∀ t, key ≠ .text t) :
    Missed c key := by
  have nothing : c.store.get key = .ok none := by
    cases counts with
    | text => exact (number _ rfl).elim
    | int | float => rfl
  have kept : c.store.remove key = (.ok false, c.store) := by
    unfold EventStore.remove
    split
    · rfl
    · cases counts with
      | text => exact (number _ rfl).elim
      | int | float => rfl
  refine ⟨fun now => ?_, fun now => ?_, fun now => ?_⟩
  · rw [call_getEventById, nothing]
    rfl
  · rw [call_updateEvent, EventStore.update, nothing]
    rfl
  · rw [callStore_remove, kept]
    rfl

end Calendar

end GuardedConsole
