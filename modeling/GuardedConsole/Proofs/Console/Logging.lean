import GuardedConsole.Proofs.Console.Restarting
import GuardedConsole.Proofs.Text.Lines

/-!
# The request log

Every command that is not blank and gets a reply leaves two lines in the log, and nothing else does:
`logText_run`. They can be read back as two lines exactly if there are no ends of lines in the command,
its source, and the message if it failed, all of which are written as they are: `log_has_two_lines_iff`.
-/

namespace GuardedConsole

open Text

/-! ### Time stamps -/

namespace Number

theorem isLineBreak_of_isAsciiDigit {c : CodePoint} (digit : isAsciiDigit c = true) :
    isLineBreak c = false := by
  obtain ⟨d, small, rfl⟩ := exists_digitChar digit
  interval_cases d <;> rfl

@[simp]
theorem isUnbroken_natText (n : Nat) : IsUnbroken isLineBreak (natText n) := fun c member =>
  isLineBreak_of_isAsciiDigit (natText_digits n c member)

@[simp]
theorem isUnbroken_padded (width n : Nat) : IsUnbroken isLineBreak (padded width n) := by
  intro c member
  rcases List.mem_append.mp member with zero | digit
  · rw [List.eq_of_mem_replicate zero]
    rfl
  · exact isUnbroken_natText n c digit

end Number

/-- A time stamp is in one line. -/
theorem Time.Moment.isUnbroken_secondStamp (m : Time.Moment) :
    IsUnbroken isLineBreak m.secondStamp := by
  have dash : isLineBreak (.char '-') = false := rfl
  have space : isLineBreak (.char ' ') = false := rfl
  have colon : isLineBreak (.char ':') = false := rfl
  simp [secondStamp, minuteStamp, Iso.minuteText, dash, space, colon]

namespace Console

variable {σ : Type} {text source : Text} {r : Reply}

/-! ### Entries -/

/-- What the log says of a reply: the first line of the result, or the message. -/
def outcomeOf (r : Reply) : Text :=
  if r.succeeded then (r.output.getD []).firstLine else "error: ".toText ++ r.output.getD []

/-- A command that is not blank and got a reply, with its source and the moment after it. -/
structure Logged where
  moment : Time.Moment
  source : Text
  text : Text
  reply : Reply
deriving DecidableEq

namespace Logged

def head (e : Logged) : Text :=
  e.moment.secondStamp ++ " ".toText ++ e.source ++ "  ".toText ++ e.text

def tail (e : Logged) : Text :=
  "  -> ".toText ++ outcomeOf e.reply

def written (e : Logged) : Text :=
  twoLines (e.head, e.tail)

def command (e : Logged) : Text × Text :=
  (e.source, e.text)

end Logged

theorem logEntry_eq (moment : Time.Moment) (text source : Text) (r : Reply) :
    logEntry moment text (outcomeOf r) source = Logged.written ⟨moment, source, text, r⟩ := by
  have feed : ("\n  -> ".toText : Text) = .char '\n' :: "  -> ".toText := rfl
  simp only [logEntry, Logged.written, twoLines, Logged.head, Logged.tail, feed,
    List.append_assoc, List.cons_append]
  rfl

variable [Host σ] {c : Console σ} {s : Step σ} {steps : List (Step σ)}

omit [Host σ] in
theorem outcome_of_reported {f : Failure} {outcome : Text}
    (verdict : c.reported text source f = .returned (outcome, r)) : outcome = outcomeOf r := by
  unfold reported at verdict
  split at verdict <;> cases verdict
  rfl

theorem outcome_of_verdict {outcome : Text} (verdict : c.verdict text source = .returned (outcome, r)) :
    outcome = outcomeOf r := by
  unfold Console.verdict at verdict
  split at verdict
  · unfold rendered at verdict
    split at verdict <;> cases verdict
    rfl
  · exact outcome_of_reported verdict
  · exact outcome_of_reported verdict
  · cases verdict

/-! ### What a step adds -/

def logText (c : Console σ) : Text :=
  c.files.log.getD []

/-- What a step leaves in the log. -/
def Step.logged (c : Console σ) : Step σ → List Logged
  | .execute text source =>
    match c.execute text source with
    | (.returned r, after) => if text.trim = [] then [] else [⟨Host.now after.world, source, text, r⟩]
    | _ => []
  | _ => []

/-- What a run leaves in the log. -/
def logged (c : Console σ) : List (Step σ) → List Logged
  | [] => []
  | s :: steps => s.logged c ++ (c.step s).logged steps

theorem logText_execute (writes : c.settings.writesLog = true) (text source : Text) :
    (c.execute text source).2.logText =
      c.logText ++ ((Step.execute text source).logged c).flatMap Logged.written := by
  unfold Step.logged
  dsimp only
  by_cases blank : text.trim = []
  · rw [execute_blank blank]
    dsimp only
    rw [if_pos blank]
    exact (List.append_nil _).symm
  · have known := executed c blank source
    have wrote (entry : Text) : (c.logWith entry).getD [] = c.logText ++ entry := by
      rw [logWith, if_pos writes]
      rfl
    generalize c.execute text source = answer at known ⊢
    cases known with
    | @halted h reporter _ => cases h <;> exact (List.append_nil _).symm
    | unlogged reporter _ _ _ =>
      -- the file is opened before the entry turns out not to be writable
      exact wrote []
    | @replied outcome r reporter verdict _ =>
      dsimp only
      rw [if_neg blank, List.flatMap_singleton, logText, log_save, world_save, ← logEntry_eq,
        ← outcome_of_verdict verdict]
      exact wrote _

theorem logText_step (writes : c.settings.writesLog = true) (s : Step σ) :
    (c.step s).logText = c.logText ++ (s.logged c).flatMap Logged.written := by
  cases s with
  | execute text source => exact logText_execute writes text source
  | reopen interpreter world reporter =>
    unfold Step.logged Console.step
    dsimp only
    rw [List.flatMap_nil, List.append_nil]
    split
    · rename_i opened reopened
      obtain ⟨history, rfl⟩ := exists_history_of_start reopened
      rfl
    · rfl
  | add _ | previous | next | complete _ | pass _ => exact (List.append_nil _).symm

/-- The log is what it was and then the entries on all commands that got replies, in order. -/
theorem logText_run (writes : c.settings.writesLog = true) (steps : List (Step σ)) :
    (c.run steps).logText = c.logText ++ (c.logged steps).flatMap Logged.written := by
  induction steps generalizing c with
  | nil => exact (List.append_nil _).symm
  | cons s steps ih =>
    have writes' : (c.step s).settings.writesLog = true := by rw [settings_step, writes]
    rw [logged, List.flatMap_append, ← List.append_assoc, ← logText_step writes]
    exact ih writes'

/-! ### Commands and lines -/

/-- The command that a step executes with its source, if it is not blank. -/
def Step.command : Step σ → List (Text × Text)
  | .execute text source => if text.trim = [] then [] else [(source, text)]
  | _ => []

/-- Every command of the run gets a reply. -/
def AllReplied (c : Console σ) (steps : List (Step σ)) : Prop :=
  ∀ before text source, before ++ [.execute text source] <+: steps →
    ∃ r, ((c.run before).execute text source).1 = .returned r

theorem command_logged (s : Step σ) :
    ((s.logged c).map Logged.command).Sublist s.command ∧
      ((∀ text source, s = .execute text source → ∃ r, (c.execute text source).1 = .returned r) →
        (s.logged c).map Logged.command = s.command) := by
  cases s with
  | execute text source =>
    unfold Step.logged Step.command
    dsimp only
    cases answered : c.execute text source with
    | mk answer after =>
      cases answer with
      | returned r =>
        dsimp only
        by_cases blank : text.trim = []
        · rw [if_pos blank, if_pos blank]
          exact ⟨.refl _, fun _ => rfl⟩
        · rw [if_neg blank, if_neg blank]
          exact ⟨.refl _, fun _ => rfl⟩
      | failed _ | unfinished =>
        refine ⟨List.nil_sublist _, fun replies => ?_⟩
        obtain ⟨r, replied⟩ := replies text source rfl
        rw [answered] at replied
        cases replied
  | add _ | previous | next | complete _ | pass _ | reopen _ _ _ => exact ⟨.refl _, fun _ => rfl⟩

theorem commands_logged_sublist (c : Console σ) (steps : List (Step σ)) :
    ((c.logged steps).map Logged.command).Sublist (steps.flatMap Step.command) := by
  induction steps generalizing c with
  | nil => exact .refl _
  | cons s steps ih =>
    rw [logged, List.map_append, List.flatMap_cons]
    exact (command_logged s).1.append (ih (c.step s))

theorem commands_logged_eq (replied : c.AllReplied steps) :
    (c.logged steps).map Logged.command = steps.flatMap Step.command := by
  induction steps generalizing c with
  | nil => rfl
  | cons s steps ih =>
    have first : (s.logged c).map Logged.command = s.command :=
      (command_logged s).2 fun text source same =>
        replied [] text source (same ▸ List.prefix_append [s] steps)
    have others : (c.step s).AllReplied steps := fun before text source begins =>
      replied (s :: before) text source (List.cons_prefix_cons.mpr ⟨rfl, begins⟩)
    rw [logged, List.map_append, List.flatMap_cons, first, ih others]

/-- There are no ends of lines in the command and its source, nor in the message if it failed. -/
structure Logged.IsUnbroken (ends : CodePoint → Bool) (e : Logged) : Prop where
  source : Text.IsUnbroken ends e.source
  text : Text.IsUnbroken ends e.text
  message : e.reply.succeeded = false → Text.IsUnbroken ends (e.reply.output.getD [])

/-- Nothing else can break the two lines of an entry. -/
theorem isUnbroken_lines_iff {ends : CodePoint → Bool}
    (fewer : ∀ c, ends c = true → isLineBreak c = true) (e : Logged) :
    Text.IsUnbroken ends e.head ∧ Text.IsUnbroken ends e.tail ↔ e.IsUnbroken ends := by
  have stamp := e.moment.isUnbroken_secondStamp.mono fewer
  have blank : Text.IsUnbroken ends " ".toText := IsUnbroken.mono fewer (by decide +kernel)
  have blanks : Text.IsUnbroken ends "  ".toText := IsUnbroken.mono fewer (by decide +kernel)
  have arrow : Text.IsUnbroken ends "  -> ".toText := IsUnbroken.mono fewer (by decide +kernel)
  have word : Text.IsUnbroken ends "error: ".toText := IsUnbroken.mono fewer (by decide +kernel)
  have outcome : Text.IsUnbroken ends (outcomeOf e.reply) ↔
      (e.reply.succeeded = false → Text.IsUnbroken ends (e.reply.output.getD [])) := by
    unfold outcomeOf
    cases e.reply.succeeded with
    | true => simp [(isUnbroken_firstLine _).mono fewer]
    | false => simp [word]
  simp only [Logged.head, Logged.tail, isUnbroken_append, stamp, blank, blanks, arrow, outcome,
    true_and, and_true]
  constructor
  · rintro ⟨⟨source, text⟩, message⟩
    exact ⟨source, text, message⟩
  · rintro ⟨source, text, message⟩
    exact ⟨⟨source, text⟩, message⟩

/-- A run of a console with a log adds an entry for each command that is not blank and gets a reply, in
order, with the moment, the source, the command and the outcome, and nothing for anything else. Whatever
line breaks end a line, the line feed among them, what is added is the two lines of each entry exactly if
no command, no source and no message about a failure that was logged has a line break of these in it. -/
theorem log_has_two_lines_iff (c : Console σ) (writes : c.settings.writesLog = true)
    (steps : List (Step σ)) :
    let entries := c.logged steps
    let added := entries.flatMap Logged.written
    (c.run steps).logText = c.logText ++ added ∧
      (entries.map Logged.command).Sublist (steps.flatMap Step.command) ∧
      (c.AllReplied steps → entries.map Logged.command = steps.flatMap Step.command) ∧
      ∀ ends : CodePoint → Bool, ends '\n' = true → (∀ c, ends c = true → isLineBreak c = true) →
        (lines ends added = entries.flatMap (fun e => [e.head, e.tail]) ↔
          ∀ e ∈ entries, e.IsUnbroken ends) := by
  intro entries added
  refine ⟨logText_run writes steps, commands_logged_sublist c steps, commands_logged_eq, ?_⟩
  intro ends feed fewer
  have pairs := lines_flatMap_twoLines_iff feed (entries.map fun e => (e.head, e.tail))
  rw [List.flatMap_map, List.flatMap_map, List.forall_mem_map] at pairs
  exact pairs.trans (forall₂_congr fun e _ => isUnbroken_lines_iff fewer e)

def unknowing : Console where
  settings := {}
  interpreter := emptyHanded
  world := early

def unknown (name : String) : Reply :=
  ⟨false, some ("Command or object not found. (Object '" ++ name ++ "' not found)").toText⟩

/-- Two commands, with a blank one between them, leave four lines. -/
theorem log_has_two_lines_greetings :
    let steps : List (Step World) := [.execute "hi".toText ownSource, .execute "  ".toText ownSource,
      .execute "bye".toText "[admin]".toText]
    unknowing.settings.writesLog = true ∧
      lines (· == '\n') (unknowing.run steps).logText =
        ["1-01-01 00:00:00 [console]  hi".toText,
          "  -> error: Command or object not found. (Object 'hi' not found)".toText,
          "1-01-01 00:00:00 [admin]  bye".toText,
          "  -> error: Command or object not found. (Object 'bye' not found)".toText] := by
  intro steps
  have writes : unknowing.settings.writesLog = true := rfl
  have feeds : ∀ c : CodePoint, (c == '\n') = true → isLineBreak c = true := by
    intro c same
    rw [eq_of_beq same]
    rfl
  have entries : unknowing.logged steps =
      [⟨early.now, ownSource, "hi".toText, unknown "hi"⟩,
        ⟨early.now, "[admin]".toText, "bye".toText, unknown "bye"⟩] := by
    decide +kernel
  obtain ⟨added, _, _, twoLines⟩ := log_has_two_lines_iff unknowing writes steps
  have unbroken : ∀ e ∈ unknowing.logged steps, e.IsUnbroken (· == '\n') := by
    rw [entries, List.forall_mem_cons, List.forall_mem_singleton]
    exact ⟨⟨by decide, by decide, fun _ => by decide +kernel⟩,
      ⟨by decide, by decide, fun _ => by decide +kernel⟩⟩
  refine ⟨writes, ?_⟩
  rw [added]
  refine ((twoLines (· == '\n') rfl feeds).mpr unbroken).trans ?_
  rw [entries]
  decide +kernel

/-- A command over three lines. -/
def forged : Text :=
  ("a!\n  -> error: Invalid command syntax. Check parentheses and quotes. (Invalid command format)\n" ++
    "1-01-01 00:00:00 [admin]  b!").toText

/-- A command can leave what two commands leave, one of them from elsewhere. -/
theorem command_forges_entries :
    (unknowing.run [.execute forged ownSource]).logText =
      (unknowing.run [.execute "a!".toText ownSource,
        .execute "b!".toText "[admin]".toText]).logText ∧
      (lines (· == '\n') (unknowing.run [.execute forged ownSource]).logText).length = 4 := by
  have same : (unknowing.run [.execute forged ownSource]).logText =
      (unknowing.run [.execute "a!".toText ownSource,
        .execute "b!".toText "[admin]".toText]).logText := by
    decide +kernel
  refine ⟨same, ?_⟩
  rw [same]
  decide +kernel

end Console

end GuardedConsole
