import GuardedConsole.Console.Basic
import GuardedConsole.Proofs.Halting

/-!
# What executing a command comes to

`Executed` lists the ways in which a console can go on from a command that is not blank, and `executed`
says that there are no others. Every way remembers the command; only the one that ends in a reply saves
the history.
-/

namespace GuardedConsole.Console

variable {σ : Type} [Host σ] {c : Console σ} {text source outcome : Text} {reporter : Reporter}
  {r : Reply} {h : Halt} {f f' : Failure} {v : Value} {delivered : Record × List Delivery}

/-! ### The outcome of a command -/

def failureVerdict (f : Failure) : Text × Reply :=
  ("error: ".toText ++ f.userMessage, ⟨false, some f.userMessage⟩)

def resultVerdict (output : Text) : Text × Reply :=
  (output.firstLine, ⟨true, some output⟩)

/-- The line that the log gets on a failure and the reply to it, once it is reported. -/
def reported (c : Console σ) (text source : Text) (f : Failure) : Outcome (Text × Reply) :=
  match (c.reporter.record f (reportContext text source)).1 with
  | .ok _ => .returned (failureVerdict f)
  | .error f => .failed f

/-- The line that the log gets on a result and the reply to it, once it is rendered. -/
def rendered (v : Value) (s : σ) : Outcome (Text × Reply) :=
  match (v.render s).1 with
  | .returned output => .returned (resultVerdict output)
  | .failed f => .failed f
  | .unfinished => .unfinished

/-- The line that the log gets on a command and the reply to it, unless there is none. -/
def verdict (c : Console σ) (text source : Text) : Outcome (Text × Reply) :=
  match c.interpreter.execute c.world text, c.settings.timeLimit with
  | (.returned v, s), _ => rendered v s
  | (.failed f, _), _ => c.reported text source f
  | (.unfinished, _), some limit => c.reported text source (timedOut limit)
  | (.unfinished, _), none => .unfinished

/-- What the command leaves of the objects of the host, its result being rendered too. -/
def left (c : Console σ) (text : Text) : σ :=
  match c.interpreter.execute c.world text with
  | (.returned v, s) => (v.render s).2
  | (_, s) => s

/-- What the log gets on a command with an outcome. -/
def entryOn (c : Console σ) (text source outcome : Text) : Text :=
  logEntry (Host.now (c.left text)) text outcome source

def logWith (c : Console σ) (entry : Text) : Option Text :=
  if c.settings.writesLog then some (c.files.log.getD [] ++ entry) else c.files.log

/-- The console after a command, before its history is saved. -/
def ran (c : Console σ) (text : Text) (reporter : Reporter) (log : Option Text) : Console σ :=
  { c with
    history := c.history.add text
    world := c.left text
    reporter := reporter
    files := { c.files with log := log } }

/-- What executing a command that is not blank can come to. -/
inductive Executed (c : Console σ) (text source : Text) : Outcome Reply × Console σ → Prop where
  | halted {h : Halt} (reporter : Reporter) : c.verdict text source = h.outcome →
    Executed c text source (h.outcome, c.ran text reporter c.files.log)
  | unlogged {outcome : Text} {r : Reply} {f : Failure} (reporter : Reporter) :
    c.verdict text source = .returned (outcome, r) → c.settings.writesLog = true →
    (c.entryOn text source outcome).checkEncodable = .error f →
    Executed c text source (.failed f, c.ran text reporter (c.logWith []))
  | replied {outcome : Text} {r : Reply} (reporter : Reporter) :
    c.verdict text source = .returned (outcome, r) →
    (c.settings.writesLog = true → (c.entryOn text source outcome).checkEncodable = .ok ()) →
    Executed c text source
      (.returned r, (c.ran text reporter (c.logWith (c.entryOn text source outcome))).save)

theorem Executed.of_conclude (verdict : c.verdict text source = .returned (outcome, r))
    (reporter : Reporter) :
    Executed c text source ((c.ran text reporter c.files.log).conclude text source outcome r) := by
  unfold conclude logRequest
  by_cases writes : c.settings.writesLog = true
  · have logged (entry : Text) : c.logWith entry = some (c.files.log.getD [] ++ entry) :=
      if_pos writes
    rw [if_pos (show (c.ran text reporter c.files.log).settings.writesLog = true from writes)]
    cases encoded : (c.entryOn text source outcome).checkEncodable with
    | error f =>
      have failed := Executed.unlogged reporter verdict writes encoded
      rw [logged, List.append_nil] at failed
      simp only [entryOn] at encoded failed
      simpa only [ran, encoded] using failed
    | ok _ =>
      have replied := Executed.replied reporter verdict fun _ => encoded
      rw [logged] at replied
      simp only [entryOn] at encoded replied
      simpa only [ran, encoded] using replied
  · have replied : Executed c text source _ :=
      .replied reporter verdict fun writes' => (writes writes').elim
    rw [logWith, if_neg writes] at replied
    rw [if_neg (show ¬(c.ran text reporter c.files.log).settings.writesLog = true from writes)]
    exact replied

theorem remembered_eq {s : σ} (left : c.left text = s) :
    ({ c.remember text with world := s } : Console σ) = c.ran text c.reporter c.files.log := by
  rw [ran, left]
  rfl

theorem fail_of_error (told : (c.reporter.record f (reportContext text source)).1 = .error f') :
    c.fail text source f =
      (.failed f', { c with reporter := (c.reporter.record f (reportContext text source)).2 }) := by
  unfold fail
  dsimp only
  rw [told]

theorem fail_of_ok (told : (c.reporter.record f (reportContext text source)).1 = .ok delivered) :
    c.fail text source f =
      ({ c with reporter := (c.reporter.record f (reportContext text source)).2 } : Console σ).conclude
        text source (failureVerdict f).1 (failureVerdict f).2 := by
  unfold fail
  dsimp only
  rw [told]
  rfl

theorem Executed.of_fail {s : σ} (verdict : c.verdict text source = c.reported text source f)
    (left : c.left text = s) :
    Executed c text source (({ c.remember text with world := s } : Console σ).fail text source f) := by
  rw [remembered_eq left]
  cases told : (c.reporter.record f (reportContext text source)).1 with
  | error f' =>
    rw [reported, told] at verdict
    rw [fail_of_error (c := c.ran text c.reporter c.files.log) told]
    exact .halted (h := .failure f') _ verdict
  | ok delivered =>
    rw [reported, told] at verdict
    rw [fail_of_ok (c := c.ran text c.reporter c.files.log) told]
    exact .of_conclude verdict _

theorem succeed_of_returned {output : Text} (shown : (v.render c.world).1 = .returned output) :
    c.succeed text source v = ({ c with world := (v.render c.world).2 } : Console σ).conclude
      text source (resultVerdict output).1 (resultVerdict output).2 := by
  unfold succeed
  dsimp only
  rw [shown]
  rfl

theorem succeed_of_halted (halts : (v.render c.world).1 = h.outcome) :
    c.succeed text source v = (h.outcome, { c with world := (v.render c.world).2 }) := by
  unfold succeed
  dsimp only
  rw [halts]
  cases h <;> rfl

theorem Executed.of_succeed {s : σ} (verdict : c.verdict text source = rendered v s)
    (left : c.left text = (v.render s).2) :
    Executed c text source (({ c.remember text with world := s } : Console σ).succeed text source v) := by
  have after : ({ c.remember text with world := (v.render s).2 } : Console σ) = _ := remembered_eq left
  rcases (v.render s).1.returned_or_halted with ⟨output, shown⟩ | ⟨h, halts⟩
  · rw [rendered, shown] at verdict
    rw [succeed_of_returned (c := { c.remember text with world := s }) shown, after]
    exact .of_conclude verdict _
  · have none : c.verdict text source = h.outcome := by
      rw [verdict, rendered, halts]
      cases h <;> rfl
    rw [succeed_of_halted (c := { c.remember text with world := s }) halts, after]
    exact .halted _ none

theorem Executed.of_endless {s : σ} (verdict : c.verdict text source = Halt.endless.outcome)
    (left : c.left text = s) :
    Executed c text source (.unfinished, { c.remember text with world := s }) := by
  rw [remembered_eq left]
  exact .halted (h := .endless) _ verdict

theorem execute_blank (blank : text.trim = []) :
    c.execute text source = (.returned ⟨true, none⟩, c) := by
  rw [execute, blank]
  rfl

/-- A command that is not blank is remembered. If there is nothing to say of it, or the log cannot hold
what there is, nothing is returned; otherwise there is a reply and the history is saved. -/
theorem executed (c : Console σ) (filled : text.trim ≠ []) (source : Text) :
    Executed c text source (c.execute text source) := by
  have listed : ¬text.trim.isEmpty = true := fun empty => filled (List.isEmpty_iff.mp empty)
  rw [execute, if_neg listed]
  cases answered : c.interpreter.execute c.world text with
  | mk answer s =>
    dsimp only [remember]
    rw [answered]
    cases answer with
    | returned v =>
      exact .of_succeed (by rw [verdict, answered]) (by rw [left, answered])
    | failed f =>
      exact .of_fail (by rw [verdict, answered]) (by rw [left, answered])
    | unfinished =>
      cases limited : c.settings.timeLimit with
      | some limit => exact .of_fail (by rw [verdict, answered, limited]) (by rw [left, answered])
      | none =>
        refine .of_endless ?_ (by rw [left, answered])
        rw [verdict, answered, limited]
        rfl

/-! ### What is left -/

theorem settings_save (c : Console σ) : c.save.settings = c.settings := by
  unfold Console.save
  split <;> rfl

theorem history_save (c : Console σ) : c.save.history = c.history := by
  unfold Console.save
  split <;> rfl

theorem world_save (c : Console σ) : c.save.world = c.world := by
  unfold Console.save
  split <;> rfl

theorem log_save (c : Console σ) : c.save.files.log = c.files.log := by
  unfold Console.save
  split <;> rfl

theorem state_save (keeps : c.settings.keepsState = true) :
    c.save.files.state = some (StateFile.write (Host.now c.world) c.history.entries) := by
  rw [Console.save, if_pos keeps]

/-- Whatever a command comes to, it is added to the history. -/
theorem history_execute (filled : text.trim ≠ []) (source : Text) :
    (c.execute text source).2.history = c.history.add text := by
  have known := executed c filled source
  generalize c.execute text source = answer at known ⊢
  cases known with
  | halted _ _ | unlogged _ _ _ _ => rfl
  | replied _ _ _ => exact history_save _

end GuardedConsole.Console
