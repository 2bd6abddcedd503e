import GuardedConsole.Proofs.Calendar.Bounding
import GuardedConsole.Proofs.Console.Remembering

/-!
# Sizes that are limits

A positive size of a history of commands is never exceeded (`History.Short`), whatever is done with the
console and however often it is reopened: adding an entry and opening a state file both cut the entries.
A size of zero cuts nothing, so that the history grows with each new text (`exists_run_longer`). The same
holds of the limit of a history of a calendar: `sizes_are_limits_unless_zero`.
-/

namespace GuardedConsole

namespace History

variable {h : History} {text : Text}

theorem entries_add_of_zero (zero : h.size = 0) (new : h.entries.getLast? ≠ some text.trim) :
    (h.add text).entries = h.entries ++ [text.trim] ∧ (h.add text).size = 0 := by
  rw [History.add, if_neg new, zero]
  exact ⟨rfl, rfl⟩

theorem exists_new_text (h : History) : ∃ text : Text, h.entries.getLast? ≠ some text.trim := by
  by_cases newest : h.entries.getLast? = some ("a".toText : Text).trim
  · refine ⟨"b".toText, ?_⟩
    rw [newest]
    decide
  · exact ⟨"a".toText, newest⟩

end History

namespace Console

open Calendar

variable {σ : Type} {c : Console σ} {settings : Settings} {i : Interpreter} {w : σ} {files : Files}
  {r : Reporter} {n : Nat}

/-- The console has a history that keeps to the size in its settings. -/
structure Sized (c : Console σ) (n : Nat) : Prop where
  size : c.settings.historySize = n
  history : c.history.Short n

theorem sized_start (positive : 0 < n) (size : settings.historySize = n)
    (started : start settings i w files r = .ok c) : c.Sized n where
  size := by
    obtain ⟨history, rfl⟩ := exists_history_of_start started
    exact size
  history := by
    obtain ⟨entries, history⟩ := history_start started
    rw [history, size]
    exact History.short_ofEntries (by omega) entries

variable [Host σ]

theorem Sized.step (sized : c.Sized n) (positive : 0 < n) (s : Step σ) : (c.step s).Sized n := by
  have size : (c.step s).settings.historySize = n := by
    rw [settings_step]
    exact sized.size
  cases s with
  | reopen interpreter world reporter =>
    unfold Console.step
    dsimp only
    split
    · rename_i opened reopened
      exact sized_start positive sized.size reopened
    · exact sized
  | execute _ _ | add _ | previous | next | complete _ | pass _ =>
    exact ⟨size, sized.history.turns (by omega) (turns_step trivial)⟩

theorem Sized.run (sized : c.Sized n) (positive : 0 < n) (steps : List (Step σ)) :
    (c.run steps).Sized n :=
  run_invariant (P := fun c => c.Sized n) sized fun s _ _ kept => kept.step positive s

/-- With a size of zero a history gets as long as one likes. -/
theorem exists_run_longer (zero : c.history.size = 0) (more : Nat) :
    ∃ steps, (c.run steps).history.entries.length = c.history.entries.length + more := by
  induction more generalizing c with
  | zero => exact ⟨[], rfl⟩
  | succ more ih =>
    obtain ⟨text, new⟩ := c.history.exists_new_text
    obtain ⟨entries, zero'⟩ := History.entries_add_of_zero zero new
    obtain ⟨steps, longer⟩ := ih (c := c.step (.add text)) zero'
    refine ⟨.add text :: steps, longer.trans ?_⟩
    show (c.history.add text).entries.length + more = _
    rw [entries, List.length_append, List.length_singleton]
    omega

/-- A positive size is a limit: whatever is done with a console of this history size, reopening it
included, the history has no more entries, and whatever is done with a calendar whose history has this
limit, there are no more states to undo and redo. Zero is no limit: both get as long as one likes. -/
theorem sizes_are_limits_unless_zero (n : Nat) :
    (0 < n →
      (∀ (settings : Settings) i (w : σ) files r c, settings.historySize = n →
        start settings i w files r = .ok c →
        ∀ steps, (c.run steps).history.entries.length ≤ n) ∧
      (∀ c c' : Calendar, c.history = { limit := n } → Comes c c' →
        c'.history.past.length + c'.history.future.length ≤ n)) ∧
    (n = 0 →
      (∀ (settings : Settings) i (w : σ) files r c, settings.historySize = n →
        start settings i w files r = .ok c → ∀ more, ∃ steps,
          (c.run steps).history.entries.length = c.history.entries.length + more) ∧
      (∀ c : Calendar, c.history = { limit := n } →
        ∀ more, ∃ c', Comes c c' ∧ c'.history.past.length = more)) := by
  refine ⟨fun positive => ⟨?_, ?_⟩, ?_⟩
  · intro settings i w files r c size started steps
    exact ((sized_start positive size started).run positive steps).history.short
  · intro c c' empty comes
    have limited : c.history.Limited n := by
      rw [empty]
      exact UndoHistory.limited_empty n
    exact (limited_of_comes limited positive comes).bounded
  · rintro rfl
    refine ⟨?_, ?_⟩
    · intro settings i w files r c size started
      refine exists_run_longer ?_
      obtain ⟨entries, history⟩ := history_start started
      rw [history]
      exact size
    · intro c empty more
      have zero : c.history.limit = 0 := by rw [empty]; rfl
      obtain ⟨c', comes, _, longer⟩ := exists_comes_longer zero more
      refine ⟨c', comes, ?_⟩
      rw [longer, empty]
      exact Nat.zero_add more

/-- With sizes of two, two of three greetings are kept, and two of three snapshots. -/
theorem two_are_limits :
    let settings : Settings := { historySize := 2 }
    let snapshot (c : Calendar) : Calendar := (c.runHistory .snapshot).2
    let empty : Calendar := { history := { limit := 2 }, currentDate := none }
    let full := snapshot (snapshot (snapshot empty))
    0 < 2 ∧ settings.historySize = 2 ∧ Comes empty full ∧
      (∃ c, start settings emptyHanded early {} {} = .ok c ∧
        (c.run greetings).history.entries = ["hi".toText, "bye".toText] ∧
        (c.run greetings).history.entries.length ≤ 2) ∧
      full.history.past.length = 2 ∧ full.history.past.length + full.history.future.length ≤ 2 := by
  intro settings snapshot empty full
  have becomes (c : Calendar) : ∃ now arguments, Becomes now arguments c (snapshot c) :=
    ⟨⟨0, none, spanMicros_pos⟩, [], .history .snapshot⟩
  have comes : Comes empty full := ((Relation.ReflTransGen.single (becomes _)).tail (becomes _)).tail
    (becomes _)
  obtain ⟨commands, snapshots⟩ := (@sizes_are_limits_unless_zero World _ 2).1 (by decide)
  exact ⟨by decide, rfl, comes,
    ⟨_, rfl, by decide +kernel, commands settings emptyHanded early {} {} _ rfl rfl greetings⟩, rfl,
    snapshots empty full rfl comes⟩

/-- Not every size is a limit: one text makes a history of size zero too long, and one snapshot a history
of a calendar with limit zero. -/
theorem zero_is_no_limit :
    (¬∀ settings i (w : World) files r c, 0 ≤ settings.historySize → start settings i w files r = .ok c →
      ∀ steps, (c.run steps).history.entries.length ≤ settings.historySize) ∧
    ¬∀ (n : Nat) (c c' : Calendar), c.history = { limit := n } → Comes c c' →
      c'.history.past.length + c'.history.future.length ≤ n := by
  constructor
  · intro limits
    have short := limits { historySize := 0 } emptyHanded early {} {} _ (by decide) rfl
      [.add "hello".toText]
    revert short
    decide
  · intro limits
    let c : Calendar := { history := { limit := 0 }, currentDate := none }
    have snapshot : Comes c (c.runHistory .snapshot).2 :=
      .single ⟨⟨0, none, spanMicros_pos⟩, [], .history .snapshot⟩
    have short := limits 0 c _ rfl snapshot
    revert short
    decide

end Console

end GuardedConsole
