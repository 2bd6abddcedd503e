import GuardedConsole.Proofs.Calendar.Soundness

/-!
# What commands make of a calendar

`Becomes` says once what one command can make of a calendar, whatever it calls. What the operations
of a store keep (`StoreInvariant`) a command keeps not only of the events but also of all states in
the history: `Throughout.becomes`. Soundness is kept likewise.
-/

namespace GuardedConsole

open Time

/-! ### Numbers for ids -/

namespace Event

theorem takeId_number_le (number : Nat) (data : Entries) : number ≤ (takeId number data).2 := by
  unfold takeId
  split
  · split
    · exact Nat.le_refl number
    · exact Nat.le_succ number
  · exact Nat.le_succ number

theorem build_number_le (now : Moment) (number : Nat) (data : Entries) :
    number ≤ (build now number data).2 :=
  takeId_number_le number data

theorem ofData_number_le (now : Moment) (number : Nat) (data : Value) (named : Entries) :
    number ≤ (ofData now number data named).2 := by
  unfold ofData
  split
  · exact build_number_le now number _
  · exact Nat.le_refl number

end Event

namespace EventStore

theorem number_le_add (s : EventStore) (now : Moment) (v : Value) :
    s.nextNumber ≤ (s.add now v).2.nextNumber := by
  unfold add
  split
  · exact Nat.le_refl _
  · have grown : s.nextNumber ≤ (s.make now v []).2.nextNumber := Event.ofData_number_le _ _ _ _
    generalize s.make now v [] = result at grown ⊢
    obtain ⟨f | e, s'⟩ := result <;> exact grown

theorem number_le_update (s : EventStore) (now : Moment) (key changes : Value) :
    s.nextNumber ≤ (s.update now key changes).2.nextNumber := by
  unfold update
  split
  · exact Nat.le_refl _
  · exact Nat.le_refl _
  · split
    · exact Nat.le_refl _
    · dsimp only
      split <;>
        (rename_i built
         exact (Event.build_number_le now s.nextNumber _).trans_eq (congrArg Prod.snd built))

theorem number_remove (s : EventStore) (key : Value) :
    (s.remove key).2.nextNumber = s.nextNumber := by
  unfold remove
  split
  · rfl
  · split
    · rfl
    · split <;> rfl

end EventStore

namespace Calendar

variable {c c' : Calendar} {now : Moment} {arguments : List Value} {change : Change}

/-! ### One command -/

/-- What one command can make of a calendar: it stays as it is, or one of its methods is carried
out, or one of its store or of its history, or numbers for ids are used up. -/
inductive Becomes (now : Moment) (arguments : List Value) (c : Calendar) : Calendar → Prop where
  | same : Becomes now arguments c c
  | method (m : Method) : Becomes now arguments c (c.run now m arguments).2
  | store (m : StoreMethod) : Becomes now arguments c (c.runStore now m arguments).2
  | history (m : HistoryMethod) : Becomes now arguments c (c.runHistory m).2
  | number {number : Nat} : c.store.nextNumber ≤ number →
    Becomes now arguments c { c with store := { c.store with nextNumber := number } }

theorem Becomes.checked (changed : Becomes now arguments c change.2) (owner : String)
    (form : String × List String) :
    Becomes now arguments c (c.checked owner form arguments change).2 := by
  unfold Calendar.checked
  split
  · exact changed
  · exact .same

theorem Sound.becomes (sound : c.Sound) (plain : ∀ v ∈ arguments, v.IsData)
    (becomes : Becomes now arguments c c') : c'.Sound := by
  cases becomes with
  | same => exact sound
  | method m => exact sound.run now m plain
  | store m => exact sound.runStore now m plain
  | history m => exact sound.runHistory m
  | number => exact sound.withStore sound.store

/-! ### What holds of all states in the history -/

/-- A property of the next number and the events of a store that its operations keep, if they are
given values of a kind. -/
structure StoreInvariant (Good : Nat → Table Event → Prop) (Given : Value → Prop) : Prop where
  null : Given .null
  empty : ∀ number, Good number []
  later : ∀ {number later events}, number ≤ later → Good number events → Good later events
  add : ∀ {s : EventStore} {v} now, Good s.nextNumber s.events → Given v →
    Good (s.add now v).2.nextNumber (s.add now v).2.events
  update : ∀ {s : EventStore} {changes} now key, Good s.nextNumber s.events → Given changes →
    Good (s.update now key changes).2.nextNumber (s.update now key changes).2.events
  remove : ∀ {s : EventStore} key, Good s.nextNumber s.events →
    Good s.nextNumber (s.remove key).2.events

/-- The property holds of the events, and of every state that can be undone or redone. -/
structure Throughout (Good : Nat → Table Event → Prop) (c : Calendar) : Prop where
  store : Good c.store.nextNumber c.store.events
  past : ∀ events ∈ c.history.past, Good c.store.nextNumber events
  future : ∀ events ∈ c.history.future, Good c.store.nextNumber events

variable {Good : Nat → Table Event → Prop} {Given : Value → Prop}

theorem given_argument (null : Given .null) (given : ∀ v ∈ arguments, Given v) (i : Nat) :
    Given (argument arguments i) := by
  unfold argument
  cases found : arguments[i]? with
  | none => exact null
  | some v => exact given v (List.mem_of_getElem? found)

namespace Throughout

theorem withStore (holds : Throughout Good c) (invariant : StoreInvariant Good Given)
    {s : EventStore} (grown : c.store.nextNumber ≤ s.nextNumber)
    (good : Good s.nextNumber s.events) : Throughout Good { c with store := s } where
  store := good
  past events member := invariant.later grown (holds.past events member)
  future events member := invariant.later grown (holds.future events member)

theorem snapshot (holds : Throughout Good c) : Throughout Good c.snapshot where
  store := holds.store
  past events member := by
    have inside : events ∈ c.store.events :: c.history.past := by
      unfold Calendar.snapshot UndoHistory.snapshot UndoHistory.kept at member
      dsimp only at member
      split at member <;> exact List.mem_of_mem_take member
    rcases List.mem_cons.mp inside with rfl | old
    · exact holds.store
    · exact holds.past events old
  future := List.forall_mem_nil _

theorem run (holds : Throughout Good c) (invariant : StoreInvariant Good Given) (m : Method)
    (given : ∀ v ∈ arguments, Given v) : Throughout Good (c.run now m arguments).2 := by
  have argument := given_argument invariant.null given
  cases m with
  | addEvent =>
    exact holds.snapshot.withStore invariant (EventStore.number_le_add _ _ _)
      (invariant.add now holds.store (argument 0))
  | updateEvent =>
    exact holds.snapshot.withStore invariant (EventStore.number_le_update _ _ _ _)
      (invariant.update now _ holds.store (argument 1))
  | removeEvent =>
    have number := EventStore.number_remove c.store (Calendar.argument arguments 0)
    exact holds.snapshot.withStore invariant number.ge
      (number.symm ▸ invariant.remove _ holds.store)
  | setView | setCurrentDate =>
    unfold Calendar.run
    dsimp only
    split <;> exact ⟨holds.store, holds.past, holds.future⟩
  | next | previous =>
    simp only [Calendar.run, navigate]
    split
    · exact holds
    · split <;> exact ⟨holds.store, holds.past, holds.future⟩
  | _ => exact ⟨holds.store, holds.past, holds.future⟩

theorem runStore (holds : Throughout Good c) (invariant : StoreInvariant Good Given)
    (m : StoreMethod) (given : ∀ v ∈ arguments, Given v) :
    Throughout Good (c.runStore now m arguments).2 := by
  have argument := given_argument invariant.null given
  cases m with
  | add =>
    exact holds.withStore invariant (EventStore.number_le_add _ _ _)
      (invariant.add now holds.store (argument 0))
  | update =>
    exact holds.withStore invariant (EventStore.number_le_update _ _ _ _)
      (invariant.update now _ holds.store (argument 1))
  | remove =>
    have number := EventStore.number_remove c.store (Calendar.argument arguments 0)
    exact holds.withStore invariant number.ge (number.symm ▸ invariant.remove _ holds.store)
  | clear => exact holds.withStore invariant (Nat.le_refl _) (invariant.empty _)
  | _ => exact holds

/-- Undoing and redoing only exchange states that the property holds of. -/
theorem runHistory (holds : Throughout Good c) (m : HistoryMethod) :
    Throughout Good (c.runHistory m).2 := by
  obtain ⟨store, ⟨past, future, limit⟩, view, zone, date⟩ := c
  obtain ⟨current, in_past, in_future⟩ := holds
  cases m with
  | snapshot => exact snapshot ⟨current, in_past, in_future⟩
  | undo =>
    cases past with
    | nil => exact ⟨current, in_past, in_future⟩
    | cons state past =>
      obtain ⟨first, others⟩ := List.forall_mem_cons.mp in_past
      exact ⟨first, others, List.forall_mem_cons.mpr ⟨current, in_future⟩⟩
  | redo =>
    cases future with
    | nil => exact ⟨current, in_past, in_future⟩
    | cons state future =>
      obtain ⟨first, others⟩ := List.forall_mem_cons.mp in_future
      exact ⟨first, List.forall_mem_cons.mpr ⟨current, in_past⟩, others⟩
  | canUndo | canRedo | getUndoCount | getRedoCount => exact ⟨current, in_past, in_future⟩

theorem becomes (holds : Throughout Good c) (invariant : StoreInvariant Good Given)
    (given : ∀ v ∈ arguments, Given v) (becomes : Becomes now arguments c c') :
    Throughout Good c' := by
  cases becomes with
  | same => exact holds
  | method m => exact holds.run invariant m given
  | store m => exact holds.runStore invariant m given
  | history m => exact holds.runHistory m
  | number grown => exact holds.withStore invariant grown (invariant.later grown holds.store)

theorem fresh (invariant : StoreInvariant Good Given) (now : Moment) :
    Throughout Good ({ currentDate := some now } : Calendar) where
  store := invariant.empty _
  past := List.forall_mem_nil _
  future := List.forall_mem_nil _

end Throughout

end Calendar

end GuardedConsole
