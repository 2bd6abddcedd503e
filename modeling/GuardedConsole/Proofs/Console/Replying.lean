import GuardedConsole.Proofs.Console.Executing
import GuardedConsole.Proofs.Console.Rendering
import GuardedConsole.Proofs.Report.Running

/-!
# Commands without a reply

A command that is not blank gets a reply unless it is waited for without end, or its failure cannot be
reported, or its result cannot be rendered, or the log cannot hold it. `Halts` lists these ways with what
gets out, and `failure_gets_out_iff` says that there are no others. Where rendering fails or never ends is
said by `Value.Unrenderable`; a failure cannot be reported if a listener breaks and the complaint about it
cannot be printed.
-/

namespace GuardedConsole.Console

variable {σ : Type} [Host σ] {c : Console σ} {text source : Text} {f f' : Failure} {h : Halt}

/-- The command fails, or it has no end and is not waited for. -/
inductive Fails (c : Console σ) (text : Text) : Failure → Prop where
  | failed {f : Failure} {s : σ} : c.interpreter.execute c.world text = (.failed f, s) →
    Fails c text f
  | timedOut {limit : Number.Binary64} {s : σ} :
    c.interpreter.execute c.world text = (.unfinished, s) → c.settings.timeLimit = some limit →
    Fails c text (timedOut limit)

/-- There is a first listener that breaks with a complaint that cannot be printed. -/
def Unreported (c : Console σ) (text source : Text) (f f' : Failure) : Prop :=
  let entry := Record.ofReport f.report (reportContext text source)
  ∃ before l after, c.reporter.listeners = before ++ l :: after ∧
    (∀ l' ∈ before, (l'.receive entry).print = .ok ()) ∧ (l.receive entry).print = .error f'

/-- There is nothing to say of a command: it is waited for without end, or its failure cannot be reported,
or its result cannot be rendered. -/
inductive NoVerdict (c : Console σ) (text source : Text) : Halt → Prop where
  | endless {s : σ} : c.interpreter.execute c.world text = (.unfinished, s) →
    c.settings.timeLimit = none → NoVerdict c text source .endless
  | unreported {f f' : Failure} : c.Fails text f → c.Unreported text source f f' →
    NoVerdict c text source (.failure f')
  | unrendered {v : Value} {s : σ} {h : Halt} :
    c.interpreter.execute c.world text = (.returned v, s) → v.Unrenderable s h →
    NoVerdict c text source h

/-- What gets out of the console in place of a reply: there is nothing to say of the command, or what is
said of it cannot be written to the log. -/
inductive GetsOut (c : Console σ) (text source : Text) : Halt → Prop where
  | unsaid {h : Halt} : c.NoVerdict text source h → GetsOut c text source h
  | unlogged {outcome : Text} {r : Reply} {f : Failure} :
    c.verdict text source = .returned (outcome, r) → c.settings.writesLog = true →
    (c.entryOn text source outcome).checkEncodable = .error f → GetsOut c text source (.failure f)

/-! ### Commands without a verdict -/

omit [Host σ] in
theorem reported_eq_outcome_iff :
    c.reported text source f = h.outcome ↔ ∃ f', c.Unreported text source f f' ∧ h = .failure f' := by
  have unreported (f' : Failure) : c.Unreported text source f f' ↔
      deliver (.ofReport f.report (reportContext text source)) c.reporter.listeners = .error f' :=
    Reporter.deliver_eq_error_iff.symm
  have told : (c.reporter.record f (reportContext text source)).1 =
      (deliver (.ofReport f.report (reportContext text source)) c.reporter.listeners).map _ := rfl
  simp only [unreported, reported, told]
  cases deliver (.ofReport f.report (reportContext text source)) c.reporter.listeners with
  | ok deliveries =>
    refine iff_of_false Outcome.returned_ne_outcome ?_
    rintro ⟨f', failed, -⟩
    cases failed
  | error f'' => cases h <;> simp [Halt.outcome, Except.map, eq_comm]

theorem rendered_eq_outcome_iff {v : Value} {s : σ} :
    rendered v s = h.outcome ↔ v.Unrenderable s h := by
  rw [← Value.render_halts_iff, rendered]
  cases (v.render s).1 with
  | returned output => exact iff_of_false Outcome.returned_ne_outcome Outcome.returned_ne_outcome
  | failed f => cases h <;> simp [Halt.outcome]
  | unfinished => cases h <;> simp [Halt.outcome]

theorem verdict_of_fails (fails : c.Fails text f) :
    c.verdict text source = c.reported text source f := by
  cases fails with
  | failed answered => rw [verdict, answered]
  | timedOut answered limited => rw [verdict, answered, limited]

theorem verdict_of_returned {v : Value} {s : σ}
    (answered : c.interpreter.execute c.world text = (.returned v, s)) :
    c.verdict text source = rendered v s := by
  rw [verdict, answered]

theorem verdict_of_endless {s : σ} (answered : c.interpreter.execute c.world text = (.unfinished, s))
    (unlimited : c.settings.timeLimit = none) :
    c.verdict text source = Halt.endless.outcome := by
  rw [verdict, answered, unlimited]
  rfl

theorem noVerdict_iff : c.verdict text source = h.outcome ↔ c.NoVerdict text source h := by
  constructor
  · intro halts
    cases answered : c.interpreter.execute c.world text with
    | mk answer s =>
      have of_fails {f : Failure} (fails : c.Fails text f) : c.NoVerdict text source h := by
        rw [verdict_of_fails fails] at halts
        obtain ⟨f', unreported, rfl⟩ := reported_eq_outcome_iff.mp halts
        exact .unreported fails unreported
      cases answer with
      | returned v =>
        rw [verdict_of_returned answered] at halts
        exact .unrendered answered (rendered_eq_outcome_iff.mp halts)
      | failed f => exact of_fails (.failed answered)
      | unfinished =>
        cases limited : c.settings.timeLimit with
        | some limit => exact of_fails (.timedOut answered limited)
        | none =>
          rw [verdict_of_endless answered limited] at halts
          obtain rfl := Outcome.outcome_inj.mp halts
          exact .endless answered limited
  · intro none
    cases none with
    | endless answered unlimited => exact verdict_of_endless answered unlimited
    | unreported fails unreported =>
      rw [verdict_of_fails fails]
      exact reported_eq_outcome_iff.mpr ⟨_, unreported, rfl⟩
    | unrendered answered unrenderable =>
      rw [verdict_of_returned answered]
      exact rendered_eq_outcome_iff.mpr unrenderable

/-! ### What gets out -/

theorem Executed.halts_iff {answer : Outcome Reply × Console σ}
    (known : Executed c text source answer) : answer.1 = h.outcome ↔ c.GetsOut text source h := by
  constructor
  · intro halts
    cases known with
    | halted _ none =>
      obtain rfl := Outcome.outcome_inj.mp halts
      exact .unsaid (noVerdict_iff.mp none)
    | unlogged _ verdict writes failed =>
      obtain rfl := Outcome.outcome_inj (h := .failure _) |>.mp halts
      exact .unlogged verdict writes failed
    | replied _ _ _ => exact (Outcome.returned_ne_outcome halts).elim
  · intro gets
    cases gets with
    | unsaid none =>
      have none := noVerdict_iff.mpr none
      cases known with
      | halted _ none' =>
        obtain rfl := Outcome.outcome_inj.mp (none'.symm.trans none)
        rfl
      | unlogged _ verdict _ _ | replied _ verdict _ =>
        exact (Outcome.returned_ne_outcome (verdict.symm.trans none)).elim
    | unlogged verdict writes failed =>
      cases known with
      | halted _ none => exact (Outcome.returned_ne_outcome (verdict.symm.trans none)).elim
      | unlogged _ verdict' _ failed' =>
        cases verdict.symm.trans verdict'
        cases failed.symm.trans failed'
        rfl
      | replied _ verdict' encodable =>
        cases verdict.symm.trans verdict'
        cases failed.symm.trans (encodable writes)

/-- An object with a function under `to_dict` that fails. -/
def brittle : Value :=
  .object "Thing".toText
    [("to_dict".toText, .function "to_dict".toText (.fails (.fault .badValue "boom".toText)))]

def brittleConsole (w : World) : Console where
  settings := { timeLimit := none }
  interpreter := { context := [("thing".toText, brittle)] }
  world := w

end GuardedConsole.Console
