import GuardedConsole.Proofs.Console.Opening
import GuardedConsole.Proofs.Console.Running
import GuardedConsole.Proofs.Console.Saving

/-!
# Restarts

Whatever has been done with a console, the history after a command that got a reply is the history of
every console that is made on its files with the same size: `history_survives_restart`. What carries it
through a run is `Restorable`: the history is no longer than its size, so opening the file drops
nothing, and its entries are whole, so they are read back as they were written.
-/

namespace GuardedConsole

open Text

/-! ### Histories that can be restored -/

namespace History

variable {h h' : History} {size : Int} {added entries : List Text} {entry text : Text}

/-- The history keeps to a size, and its entries are whole. -/
structure Fits (h : History) (size : Int) : Prop extends h.Short size where
  whole : ∀ entry ∈ h.entries, entry.IsWhole

theorem mem_of_mem_kept (listed : entry ∈ kept size entries) : entry ∈ entries := by
  unfold kept at listed
  split at listed <;> exact List.mem_of_mem_drop listed

theorem fits_ofEntries (positive : 1 ≤ size) (whole : ∀ entry ∈ entries, entry.IsWhole) :
    (ofEntries size entries).Fits size where
  toShort := short_ofEntries positive entries
  whole entry listed := whole entry (mem_of_mem_kept listed)

theorem Fits.turns (fits : h.Fits size) (positive : 1 ≤ size) (turns : h.Turns added h')
    (whole : ∀ t ∈ added, t.IsWhole) : h'.Fits size where
  toShort := fits.toShort.turns positive turns
  whole := by
    cases turns with
    | same => exact fits.whole
    | add text =>
      intro entry listed
      unfold History.add at listed
      split at listed
      · exact fits.whole entry listed
      · rcases List.mem_append.mp (mem_of_mem_kept listed) with old | new
        · exact fits.whole entry old
        · exact whole entry new
    | previous =>
      rw [h.moved_previous.2]
      exact fits.whole
    | next =>
      rw [h.moved_next.2]
      exact fits.whole

/-- The entries of a history that keeps to its size make up that history, its cursor at the end. -/
theorem Fits.ofEntries_eq (fits : h.Fits size) (positive : 1 ≤ size) :
    ofEntries size h.entries = { h with cursor := h.entries.length } := by
  rw [ofEntries, kept_of_short positive fits.short, fits.sized]

end History

namespace Console

variable {σ : Type} {c : Console σ} {settings : Settings} {i : Interpreter} {w : σ} {files : Files}
  {r : Reporter} {text source : Text}

def Step.IsPlain : Step σ → Prop
  | .execute text _ | .add text => text.IsPlain
  | _ => True

theorem Step.whole_added {s : Step σ} (plain : s.IsPlain) : ∀ t ∈ s.added, t.IsWhole := by
  cases s with
  | execute text source =>
    unfold Step.added
    dsimp only
    split
    · exact List.forall_mem_nil _
    · exact List.forall_mem_singleton.mpr (Text.IsPlain.trim plain).isWhole
  | add text => exact List.forall_mem_singleton.mpr (Text.IsPlain.trim plain).isWhole
  | previous | next | complete _ | pass _ | reopen _ _ _ => exact List.forall_mem_nil _

/-- The entries in a state file, if it has any, are whole. -/
def StoresWhole (files : Files) : Prop :=
  ∀ content entries, files.state = some content → StateFile.read content = .ok entries →
    ∀ entry ∈ entries, entry.IsWhole

/-- What every console keeps whose files were plain and whose commands are. -/
structure Restorable (c : Console σ) : Prop where
  positive : 1 ≤ c.settings.historySize
  fits : c.history.Fits c.settings.historySize
  stored : StoresWhole c.files

theorem restorable_start (positive : 1 ≤ settings.historySize) (stored : StoresWhole files)
    (started : start settings i w files r = .ok c) : c.Restorable ∧ c.settings = settings := by
  unfold start StateFile.load at started
  dsimp only at started
  split at started
  · cases started
    exact ⟨⟨positive, ⟨⟨rfl, Nat.zero_le _⟩, nofun⟩, stored⟩, rfl⟩
  · rename_i content found
    cases read : StateFile.read content with
    | error f => rw [read] at started; cases started
    | ok entries =>
      rw [read] at started
      cases started
      have present : files.state = some content := by
        split at found
        · exact found
        · cases found
      exact ⟨⟨positive, History.fits_ofEntries positive (stored content entries present read), stored⟩,
        rfl⟩

variable [Host σ]

theorem Restorable.save (restorable : c.Restorable) : c.save.Restorable := by
  unfold Console.save
  split
  · refine ⟨restorable.positive, restorable.fits, ?_⟩
    intro content entries found read
    cases found
    rw [StateFile.read_write restorable.fits.whole] at read
    cases read
    exact restorable.fits.whole
  · exact restorable

theorem Restorable.ran (restorable : c.Restorable) (plain : text.IsPlain) (reporter : Reporter)
    (log : Option Text) : (c.ran text reporter log).Restorable where
  positive := restorable.positive
  fits := restorable.fits.turns restorable.positive (.add text)
    (List.forall_mem_singleton.mpr plain.trim.isWhole)
  stored := restorable.stored

theorem Restorable.execute (restorable : c.Restorable) (plain : text.IsPlain) (source : Text) :
    (c.execute text source).2.Restorable := by
  by_cases filled : text.trim = []
  · rw [execute_blank filled]
    exact restorable
  · have known := executed c filled source
    generalize c.execute text source = answer at known ⊢
    cases known with
    | halted _ _ | unlogged _ _ _ _ => exact restorable.ran plain _ _
    | replied _ _ _ => exact (restorable.ran plain _ _).save

/-- No step spoils what makes a restart safe. -/
theorem Restorable.step (restorable : c.Restorable) {s : Step σ} (plain : s.IsPlain) :
    (c.step s).Restorable := by
  obtain ⟨positive, fits, stored⟩ := restorable
  cases s with
  | execute text source => exact Restorable.execute ⟨positive, fits, stored⟩ plain source
  | add _ | previous | next | complete _ | pass _ =>
    exact ⟨positive, fits.turns positive (turns_step trivial) (Step.whole_added plain), stored⟩
  | reopen interpreter world reporter =>
    unfold Console.step
    dsimp only
    split
    · rename_i opened started
      exact (restorable_start positive stored started).1
    · exact ⟨positive, fits, stored⟩

theorem Restorable.run (restorable : c.Restorable) {steps : List (Step σ)}
    (plain : ∀ s ∈ steps, s.IsPlain) :
    (c.run steps).Restorable ∧ (c.run steps).settings = c.settings :=
  ⟨run_invariant restorable fun s listed _ kept => kept.step (plain s listed),
    settings_run c steps⟩

/-! ### Restarting -/

/-- A console that has replied to a command has saved its history. -/
theorem state_of_replied (keeps : c.settings.keepsState = true) (filled : text.trim ≠ [])
    {reply : Reply} (replied : (c.execute text source).1 = .returned reply) :
    (c.execute text source).2.history = c.history.add text ∧
      ∃ now, (c.execute text source).2.files.state =
        some (StateFile.write now (c.history.add text).entries) := by
  generalize came : c.execute text source = answer at replied ⊢
  have known := executed c filled source
  rw [came] at known
  cases known with
  | halted _ _ => exact (Outcome.returned_ne_outcome replied.symm).elim
  | unlogged _ _ _ _ => cases replied
  | replied reporter _ _ =>
    exact ⟨history_save _, _, state_save (c := c.ran _ _ _) keeps⟩

/-- After any run that begins with a console on plain files, what a command that is not blank and gets a
reply leaves in the state file is the history: every console that is made on it with the same size has
the same history, its cursor past the newest entry. -/
theorem history_survives_restart (settings : Settings) (i : Interpreter) (w : σ) (files : Files)
    (r : Reporter) (c : Console σ) (positive : 1 ≤ settings.historySize)
    (keeps : settings.keepsState = true)
    (plainFile : ∀ content, files.state = some content → content.IsPlain)
    (started : start settings i w files r = .ok c) (steps : List (Step σ))
    (plainSteps : ∀ s ∈ steps, s.IsPlain) (text source : Text) (plain : text.IsPlain)
    (filled : text.trim ≠ []) (reply : Reply)
    (replied : ((c.run steps).execute text source).1 = .returned reply) :
    let left := ((c.run steps).execute text source).2
    ∀ settings' i' (w' : σ) files' r', settings'.historySize = settings.historySize →
      settings'.keepsState = true → files'.state = left.files.state →
      ∃ c', start settings' i' w' files' r' = .ok c' ∧ c'.history = left.history ∧
        c'.history.cursor = c'.history.entries.length := by
  intro left settings' i' w' files' r' sameSize keeps' sameState
  have stored : StoresWhole files := fun content entries found read =>
    StateFile.isWhole_of_read (plainFile content found) read
  obtain ⟨restorable, same⟩ := restorable_start positive stored started
  obtain ⟨reached, same'⟩ := restorable.run plainSteps
  have keptSize : (c.run steps).settings = settings := same'.trans same
  have fits := reached.fits.turns reached.positive (.add text)
    (List.forall_mem_singleton.mpr plain.trim.isWhole)
  rw [keptSize] at fits
  obtain ⟨history, now, state⟩ := state_of_replied (by rw [keptSize]; exact keeps) filled replied
  have opening : start settings' i' w' files' r' =
      .ok (opened settings' i' w' files' r' ((c.run steps).history.add text).entries) := by
    rw [start_eq keeps' (sameState.trans state), StateFile.read_write fits.whole]
    rfl
  have restored : History.ofEntries settings'.historySize ((c.run steps).history.add text).entries =
      left.history := by
    rw [sameSize, fits.ofEntries_eq positive, history, ← History.cursor_add]
  refine ⟨_, opening, restored, ?_⟩
  rw [opened, restored, history]
  exact History.cursor_add _ _

/-- A state file with a character in two escapes and half of one. -/
def handwritten : Text :=
  "\x7b\"history\": [\"\\ud83d\\ude00\", \"\\ud83d\"]\x7d".toText

theorem read_handwritten :
    StateFile.read handwritten = .ok ["😀".toText, [.high 0x3d]] := by
  cbv

def emptyHanded : Interpreter :=
  { context := [] }

theorem spanMicros_pos : 0 < Time.spanMicros := by
  decide

def early : World :=
  World.fresh ⟨0, none, spanMicros_pos⟩

/-- The history outlives a restart after a command that is added, a step back and a reopening. -/
theorem history_survives_greeting :
    let settings : Settings := { historySize := 2, keepsState := true }
    let files : Files := { state := some handwritten }
    let steps : List (Step World) := [.add "hello".toText, .previous, .reopen emptyHanded early {}]
    1 ≤ settings.historySize ∧ settings.keepsState = true ∧
      (∀ content, files.state = some content → content.IsPlain) ∧ (∀ s ∈ steps, s.IsPlain) ∧
      ("hi\n".toText : Text).IsPlain ∧ ("hi\n".toText : Text).trim ≠ [] ∧
      ∃ c reply, start settings emptyHanded early files {} = .ok c ∧
        ((c.run steps).execute "hi\n".toText ownSource).1 = .returned reply ∧
        ∃ c', start settings emptyHanded early
            ((c.run steps).execute "hi\n".toText ownSource).2.files {} = .ok c' ∧
          c'.history = ((c.run steps).execute "hi\n".toText ownSource).2.history ∧
          c'.history.cursor = c'.history.entries.length := by
  intro settings files steps
  have plainFile : ∀ content, files.state = some content → content.IsPlain := by
    intro content found
    cases found
    decide
  have plainSteps : ∀ s ∈ steps, s.IsPlain := by
    simp only [steps, List.forall_mem_cons]
    exact ⟨(by decide : ("hello".toText : Text).IsPlain), trivial, trivial, nofun⟩
  let c := opened settings emptyHanded early files {} ["😀".toText, [.high 0x3d]]
  have started : start settings emptyHanded early files {} = .ok c := by
    rw [start_eq rfl rfl, read_handwritten]
    rfl
  have replied : ((c.run steps).execute "hi\n".toText ownSource).1 =
      .returned ⟨false, some "Command or object not found. (Object 'hi' not found)".toText⟩ := by
    decide +kernel
  obtain ⟨c', opening, history, cursor⟩ := history_survives_restart settings emptyHanded early files
    {} c (by decide) rfl plainFile started steps plainSteps "hi\n".toText ownSource (by decide)
    (by decide) _ replied settings emptyHanded early _ {} rfl rfl rfl
  exact ⟨by decide, rfl, plainFile, plainSteps, by decide, by decide, c, _, started, replied, c',
    opening, history, cursor⟩

end Console

end GuardedConsole
