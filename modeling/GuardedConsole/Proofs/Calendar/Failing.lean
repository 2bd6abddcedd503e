import GuardedConsole.Proofs.Calendar.History
import GuardedConsole.Proofs.Calendar.Soundness

/-!
# Methods that fail

A method that fails leaves the events, the view, the time zone and the date of a calendar as they
were (`Kept`). It leaves the history that it would also leave if it succeeded: `call_error` says so of
the methods of the calendar, which may have kept a snapshot of the events by then.
-/

namespace GuardedConsole.Calendar

open Time

variable {c c' : Calendar} {now : Moment} {arguments : List Value} {f : Failure}

/-- The calendars show the same events, view, time zone and date. -/
structure Kept (c c' : Calendar) : Prop where
  events : c'.store.events = c.store.events
  view : c'.view = c.view
  timezone : c'.timezone = c.timezone
  currentDate : c'.currentDate = c.currentDate

theorem Kept.refl (c : Calendar) : Kept c c :=
  ⟨rfl, rfl, rfl, rfl⟩

theorem Kept.trans {a b c : Calendar} (first : Kept a b) (second : Kept b c) : Kept a c :=
  ⟨second.events.trans first.events, second.view.trans first.view,
    second.timezone.trans first.timezone, second.currentDate.trans first.currentDate⟩

theorem kept_snapshot (c : Calendar) : Kept c c.snapshot :=
  ⟨rfl, rfl, rfl, rfl⟩

/-! ### The store -/

theorem add_error {s : EventStore} {v : Value} (plain : v.IsData)
    (failed : (s.add now v).1 = .error f) : (s.add now v).2.events = s.events := by
  rcases s.add_cases now plain with ⟨e, done, _⟩ | ⟨_, _, same⟩
  · rw [done] at failed
    cases failed
  · exact same

theorem update_error {s : EventStore} {key changes : Value}
    (failed : (s.update now key changes).1 = .error f) :
    (s.update now key changes).2.events = s.events := by
  rcases s.update_cases now key changes with ⟨_, _, done, _⟩ | ⟨_, _, same⟩
  · rw [done] at failed
    cases failed
  · exact same

theorem remove_error {s : EventStore} {key : Value} (failed : (s.remove key).1 = .error f) :
    (s.remove key).2.events = s.events := by
  rcases s.remove_cases key with ⟨_, done, _⟩ | ⟨_, _, same⟩
  · rw [done] at failed
    cases failed
  · rw [same]

/-! ### Methods -/

theorem kept_change {α : Type} {toValue : α → Value} {result : Except Failure α × EventStore}
    (same : result.1 = .error f → result.2.events = c.store.events)
    (failed : (c.change toValue result).1 = .error f) : Kept c (c.change toValue result).2 :=
  ⟨same (Failure.of_map failed), rfl, rfl, rfl⟩

theorem navigate_error {back : Bool} (failed : (c.navigate back).1 = .error f) :
    (c.navigate back).2 = c := by
  unfold navigate at failed ⊢
  split at failed
  · rfl
  · split at failed
    · cases failed
    · rfl

theorem setView_error (failed : (c.run now .setView arguments).1 = .error f) :
    (c.run now .setView arguments).2 = c := by
  simp only [run] at failed ⊢
  split at failed
  · cases failed
  · rename_i unlisted
    rw [if_neg unlisted]

theorem setCurrentDate_error (failed : (c.run now .setCurrentDate arguments).1 = .error f) :
    (c.run now .setCurrentDate arguments).2 = c := by
  simp only [run] at failed ⊢
  split at failed
  · cases failed
  · rfl

theorem run_error (m : Method) (plain : ∀ v ∈ arguments, v.IsData)
    (failed : (c.run now m arguments).1 = .error f) : Kept c (c.run now m arguments).2 := by
  have whole (same : (c.run now m arguments).2 = c) : Kept c (c.run now m arguments).2 := by
    rw [same]
    exact .refl c
  cases m with
  | addEvent =>
    exact c.kept_snapshot.trans (kept_change (add_error (isData_argument plain 0)) failed)
  | updateEvent => exact c.kept_snapshot.trans (kept_change update_error failed)
  | removeEvent => exact c.kept_snapshot.trans (kept_change remove_error failed)
  | setView => exact whole (setView_error failed)
  | next => exact whole (navigate_error failed)
  | previous => exact whole (navigate_error failed)
  | setCurrentDate => exact whole (setCurrentDate_error failed)
  | today | setTimezone => cases failed
  | getEvents | getEventById | getEventsForDate | getEventsInRange | detectConflicts | getView
  | getCurrentDate | getTimezone => exact .refl c

theorem runStore_error (m : StoreMethod) (plain : ∀ v ∈ arguments, v.IsData)
    (failed : (c.runStore now m arguments).1 = .error f) :
    Kept c (c.runStore now m arguments).2 := by
  cases m with
  | add => exact kept_change (add_error (isData_argument plain 0)) failed
  | update => exact kept_change update_error failed
  | remove => exact kept_change remove_error failed
  | clear => cases failed
  | get | getAll | getByDate | getByDateRange | getStats | hasConflicts | getConflicts =>
    exact .refl c

/-! ### Calls -/

theorem call_error (m : Method) (plain : ∀ v ∈ arguments, v.IsData)
    (failed : (c.call now m arguments).1 = .error f) :
    Kept c (c.call now m arguments).2 ∧
      (c.call now m arguments).2.history =
        if arguments.length = m.form.2.length then c.historyAfter m else c.history := by
  unfold call at failed ⊢
  by_cases enough : arguments.length = m.form.2.length
  · rw [checked_of_length_eq c _ _ enough] at failed ⊢
    rw [if_pos enough]
    exact ⟨run_error m plain failed, c.history_run now m arguments⟩
  · obtain ⟨_, refused⟩ := checked_of_length_ne c "Calendar" (c.run now m arguments) enough
    rw [refused, if_neg enough]
    exact ⟨.refl c, rfl⟩

theorem callStore_error (m : StoreMethod) (plain : ∀ v ∈ arguments, v.IsData)
    (failed : (c.callStore now m arguments).1 = .error f) :
    Kept c (c.callStore now m arguments).2 ∧
      (c.callStore now m arguments).2.history = c.history := by
  unfold callStore at failed ⊢
  by_cases enough : arguments.length = m.form.2.length
  · rw [checked_of_length_eq c _ _ enough] at failed ⊢
    exact ⟨runStore_error m plain failed, c.history_runStore now m arguments⟩
  · obtain ⟨_, refused⟩ :=
      checked_of_length_ne c "EventStore" (c.runStore now m arguments) enough
    rw [refused]
    exact ⟨.refl c, rfl⟩

/-- Undoing and redoing do not fail; only a wrong number of arguments is refused. -/
theorem callHistory_error (m : HistoryMethod)
    (failed : (c.callHistory m arguments).1 = .error f) :
    (c.callHistory m arguments).2 = c := by
  unfold callHistory at failed ⊢
  by_cases enough : arguments.length = m.form.2.length
  · rw [checked_of_length_eq c _ _ enough] at failed
    cases failed
  · obtain ⟨_, refused⟩ := checked_of_length_ne c "StateHistory" (c.runHistory m) enough
    rw [refused]

end GuardedConsole.Calendar
