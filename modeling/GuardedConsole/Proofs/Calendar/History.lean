import GuardedConsole.Proofs.Calendar.Arguments

/-!
# The history of a calendar

`history_run` says what each method does to the history: the three that change events keep a
snapshot, whether they fail or not, and no other touches it. Undoing and redoing are opposite: each
takes back what the other has done (`runHistory_opposite`), and undoing takes back a snapshot. The states
that can be undone and those that can be redone are together no more than a positive limit
(`UndoHistory.Limited`).
-/

namespace GuardedConsole

open Time

namespace UndoHistory

variable {σ : Type} {h : UndoHistory σ} {n : Nat}

/-- A positive limit cuts the states behind the new one. -/
theorem past_snapshot (limit : h.limit = n) (positive : 0 < n) (current : σ) :
    (h.snapshot current).past = (current :: h.past).take n := by
  simp [snapshot, kept, limit, positive]

/-- If the limit leaves room for a state, undoing after a snapshot gives the kept state back. -/
theorem undo_snapshot (room : 0 < h.limit) (kept current : σ) :
    ∃ h', (h.snapshot kept).undo current = some (kept, h') := by
  obtain ⟨n, limit⟩ : ∃ n : Nat, h.limit = (n + 1 : Nat) := ⟨h.limit.toNat - 1, by omega⟩
  have past : (h.snapshot kept).past = kept :: h.past.take n :=
    past_snapshot limit n.succ_pos kept
  refine ⟨{ h.snapshot kept with past := h.past.take n, future := [current] }, ?_⟩
  rw [undo, past]
  rfl

/-! ### Limits -/

/-- How many states there are to undo and to redo. -/
def count (h : UndoHistory σ) : Nat :=
  h.past.length + h.future.length

/-- The history has a limit and keeps to it. -/
structure Limited (h : UndoHistory σ) (n : Nat) : Prop where
  limit : h.limit = n
  bounded : h.count ≤ n

theorem limited_empty (n : Nat) : ({ limit := n } : UndoHistory σ).Limited n :=
  ⟨rfl, Nat.zero_le n⟩

theorem Limited.snapshot (limited : h.Limited n) (positive : 0 < n) (current : σ) :
    (h.snapshot current).Limited n where
  limit := limited.limit
  bounded := by
    have dropped : (h.snapshot current).future = [] := rfl
    rw [count, past_snapshot limited.limit positive, dropped, List.length_nil, Nat.add_zero]
    exact List.length_take_le n _

/-- Only a snapshot changes how many states there are. -/
theorem Limited.run (limited : h.Limited n) (positive : 0 < n) (m : Calendar.HistoryMethod)
    (current : σ) : (m.run h current).2.2.Limited n := by
  obtain ⟨past, future, limit⟩ := h
  obtain ⟨same, bounded⟩ := limited
  cases m with
  | snapshot => exact Limited.snapshot ⟨same, bounded⟩ positive current
  | undo =>
    cases past with
    | nil => exact ⟨same, bounded⟩
    | cons state past =>
      refine ⟨same, ?_⟩
      simp only [count, List.length_cons] at bounded
      simp only [Calendar.HistoryMethod.run, undo, count, List.length_cons]
      omega
  | redo =>
    cases future with
    | nil => exact ⟨same, bounded⟩
    | cons state future =>
      refine ⟨same, ?_⟩
      simp only [count, List.length_cons] at bounded
      simp only [Calendar.HistoryMethod.run, redo, count, List.length_cons]
      omega
  | canUndo | canRedo | getUndoCount | getRedoCount => exact ⟨same, bounded⟩

end UndoHistory

namespace Calendar

variable {c : Calendar} {now : Moment} {arguments : List Value}

/-- Does the method change events, keeping a snapshot of them first? -/
def Method.changesEvents : Method → Bool
  | addEvent | updateEvent | removeEvent => true
  | _ => false

/-- The history that a method leaves, whether it fails or not. -/
def historyAfter (c : Calendar) (m : Method) : UndoHistory (Table Event) :=
  if m.changesEvents then c.history.snapshot c.store.events else c.history

theorem history_navigate (c : Calendar) (back : Bool) :
    (c.navigate back).2.history = c.history := by
  unfold navigate
  split
  · rfl
  · split <;> rfl

theorem history_run (c : Calendar) (now : Moment) (m : Method) (arguments : List Value) :
    (c.run now m arguments).2.history = c.historyAfter m := by
  cases m with
  | setView =>
    simp only [run]
    split <;> rfl
  | next => exact c.history_navigate false
  | previous => exact c.history_navigate true
  | setCurrentDate =>
    simp only [run]
    split <;> rfl
  | _ => rfl

theorem history_runStore (c : Calendar) (now : Moment) (m : StoreMethod)
    (arguments : List Value) : (c.runStore now m arguments).2.history = c.history := by
  cases m <;> rfl

/-! ### Undoing and redoing -/

/-- Undoing for redoing, and redoing for undoing. -/
def HistoryMethod.opposite : HistoryMethod → HistoryMethod
  | undo => redo
  | redo => undo
  | other => other

/-- How often the method can be called in a row until it has no effect. -/
def reserve (c : Calendar) : HistoryMethod → Nat
  | .undo => c.history.past.length
  | .redo => c.history.future.length
  | _ => 0

/-- As long as there is something to undo, undoing answers yes and uses up one state, and redoing
answers yes and takes it back; likewise with the two exchanged. -/
theorem runHistory_opposite (c : Calendar) {m : HistoryMethod} {n : Nat}
    (available : c.reserve m = n + 1) :
    (c.runHistory m).1 = .ok (.bool true) ∧ (c.runHistory m).2.reserve m = n ∧
      (c.runHistory m).2.runHistory m.opposite = (.ok (.bool true), c) := by
  obtain ⟨⟨events, number⟩, ⟨past, future, limit⟩, view, timezone, date⟩ := c
  cases m with
  | undo =>
    cases past with
    | nil => cases available
    | cons state past => exact ⟨rfl, Nat.succ.inj available, rfl⟩
  | redo =>
    cases future with
    | nil => cases available
    | cons state future => exact ⟨rfl, Nat.succ.inj available, rfl⟩
  | _ => cases available

/-- After a snapshot, undoing answers yes and brings the events back that were kept, whatever the
events have become. -/
theorem runHistory_undo_snapshot {c' : Calendar} {events : Table Event}
    (room : 0 < c.history.limit) (left : c'.history = c.history.snapshot events) :
    (c'.runHistory .undo).1 = .ok (.bool true) ∧
      (c'.runHistory .undo).2.store.events = events := by
  obtain ⟨h', undone⟩ := UndoHistory.undo_snapshot room events c'.store.events
  rw [← left] at undone
  simp only [runHistory, HistoryMethod.run, undone]
  exact ⟨trivial, trivial⟩

end Calendar

end GuardedConsole
