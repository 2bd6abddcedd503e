import GuardedConsole.Interpreter.Basic
import GuardedConsole.Proofs.Command.Grammar
import GuardedConsole.Proofs.Interpreter.Offering

/-!
# Completions that are accepted

An offer is `Accepted` if the command that completes it is read as what is offered and passes every
check. Completion makes some of these checks and leaves others out, which `Fit` names:
`completions_accepted_iff` shows that an offer is accepted exactly if it is fit and not denied.
-/

namespace GuardedConsole

open Screening Time

/-! ### Commands without arguments -/

namespace Offer

/-- What the command asks for that completes an offer: nothing is passed to what is called. -/
def asked : Offer → Command
  | .root name => .property ⟨name, [], Interpreter.short_none⟩
  | .call path => .call path []
  | .construct name => .construct name []

/-- The command that completes an offer. A name is a command already. -/
def command : Offer → Text
  | .root name => name
  | .call path => text (.call path) ++ [.char ')']
  | .construct name => text (.construct name) ++ [.char ')']

/-- All names in the offer are ASCII words. -/
def WellNamed : Offer → Prop
  | .root name | .construct name => Command.isName name = true
  | .call path => path.WellNamed

variable {offer : Offer} {now : Moment} {name : Text} {path : Path}

theorem command_call (path : Path) :
    command (.call path) = path.text ++ Command.parenthesized [] := by
  simp [command, text, Command.parenthesized]

theorem command_construct (name : Text) :
    command (.construct name) =
      "new".toText ++ [.char ' '] ++ name ++ Command.parenthesized [] := by
  have word : "new ".toText = "new".toText ++ [.char ' '] := rfl
  simp [command, text, Command.parenthesized, word]

/-- The command is of the shape that is offered exactly if all names in it are words. -/
theorem parse_command_iff :
    Command.parse now offer.command = .ok (some offer.asked) ↔ offer.WellNamed := by
  have nothing : Literal.readArguments now [] = .ok [] := rfl
  cases offer with
  | root name =>
    rw [asked, Command.parse_eq_property_iff]
    constructor
    · rintro ⟨core, _, written⟩
      cases written with
      | property named => exact named name List.mem_cons_self
    · intro named
      have words : Path.WellNamed ⟨name, [], by simp⟩ := by
        intro part listed
        rw [List.mem_singleton.mp listed]
        exact named
      exact ⟨name, .inl rfl, .property words⟩
  | call path =>
    rw [asked, Command.parse_eq_call_iff, command_call]
    constructor
    · rintro ⟨A, ⟨core, _, written⟩, _⟩
      cases written with
      | call named _ => exact named
    · intro named
      exact ⟨[], ⟨_, .inl rfl, .call named rfl⟩, nothing⟩
  | construct name =>
    rw [asked, Command.parse_eq_construct_iff, command_construct]
    constructor
    · rintro ⟨A, ⟨core, _, written⟩, _⟩
      cases written with
      | construct _ _ named _ => exact named
    · intro named
      have space : ∀ c ∈ [CodePoint.char ' '], Text.isAsciiBlank c = true := by decide
      exact ⟨[], ⟨_, .inl rfl, .construct (List.cons_ne_nil _ _) space named rfl⟩, nothing⟩

/-- The name that an offer begins with, or that of the class to construct. -/
def first : Offer → Text
  | .root name | .construct name => name
  | .call path => path.root

theorem head?_command {c : CodePoint} (named : Command.isName offer.first = true)
    (begins : offer.command.head? = some c) : isRemovable c = false := by
  obtain ⟨filled, words⟩ := Command.isName_iff.mp named
  cases offer with
  | root name => exact isRemovable_of_word (words c (List.mem_of_head? begins))
  | call path =>
    obtain ⟨d, rest, root⟩ := List.exists_cons_of_ne_nil filled
    have root : path.root = d :: rest := root
    have begun : path.text.head? = some d := by
      rw [Path.text, Path.segments, root]
      cases path.members <;> rfl
    rw [command_call, List.head?_append, begun] at begins
    cases begins
    exact isRemovable_of_word (words _ (by rw [first, root]; exact List.mem_cons_self))
  | construct name =>
    have begun : command (.construct name) = .char 'n' :: _ := rfl
    rw [begun] at begins
    cases begins
    decide

theorem getLast?_command {c : CodePoint} (named : Command.isName offer.first = true)
    (ends : offer.command.getLast? = some c) : isRemovable c = false := by
  cases offer with
  | root name =>
    exact isRemovable_of_word ((Command.isName_iff.mp named).2 c (List.mem_of_getLast? ends))
  | call path | construct name =>
    rw [command, List.getLast?_concat] at ends
    cases ends
    decide

/-- Nothing is taken off a command that begins with a word. -/
theorem normalize_command (named : Command.isName offer.first = true) :
    normalize offer.command = offer.command :=
  normalize_eq_self (fun _ => head?_command named) fun _ => getLast?_command named

end Offer

namespace Interpreter

variable {σ : Type} {i : Interpreter} {h : Host σ} {s : σ} {v : Value} {offer : Offer}
  {root scope name : Text} {path : Path}

/-! ### What is accepted -/

/-- The command that completes an offer is read as what is offered and passes every check. -/
def Accepted (i : Interpreter) (h : Host σ) (s : σ) (offer : Offer) : Prop :=
  ∃ action, parse (h.now s) offer.command = .ok (some offer.asked) ∧
    i.planCommand h s offer.asked = .ok action

/-- What completion does not check: that a class to construct can be called, that a function of the
context is on its own allow-list, and that what is found under the names of a method can be called.
-/
def Fit (i : Interpreter) (h : Host σ) (s : σ) : Offer → Prop
  | .root _ => True
  | .construct name => ∃ target, i.Binds name target ∧ h.isCallable s target = true
  | .call ⟨root, [], _⟩ => i.isAllowed root root = true
  | .call path =>
    path.WellNamed ∧ ∃ target, i.Addresses h s path target ∧ h.isCallable s target = true ∧
      h.isClass s target = false

theorem Offered.first_named (named : i.WellNamed) (offered : i.Offered h s offer) :
    Command.isName offer.first = true := by
  have word {root : Text} {v : Value} (found : i.context.find? root = some v) :
      Command.isName root = true := named.words _ (Table.mem_of_find? found)
  cases offered with
  | construct found _ => exact word found
  | root stands | call stands | own stands | deeper stands => exact word stands.found

theorem WellNamed.binds (named : i.WellNamed) (found : i.context.find? root = some v) :
    i.Binds root v :=
  ⟨found, named.bound _ (Table.mem_of_find? found)⟩

/-- A command is read as what is offered exactly if it is not denied and its names are words. -/
theorem accepted_iff (named : Command.isName offer.first = true) :
    i.Accepted h s offer ↔ findViolation offer.command = none ∧ offer.WellNamed ∧
      ∃ action, i.planCommand h s offer.asked = .ok action := by
  rw [Accepted, exists_and_left, parse_eq_ok_iff, Offer.normalize_command named,
    Offer.parse_command_iff, ← findViolation_eq_none_iff, and_assoc]

theorem exists_planCall_iff :
    (∃ action, i.planCommand h s (.call path []) = .ok action) ↔
      ∃ target, i.Addresses h s path target ∧ h.isCallable s target = true ∧
        h.isClass s target = false ∧ i.isAllowed path.scope path.name = true := by
  simp only [planCommand, planCall_eq_ok_iff, isAllowed_iff]
  constructor
  · rintro ⟨_, target, addressed, callable, noClass, allowed, _⟩
    exact ⟨target, addressed, callable, noClass, allowed⟩
  · rintro ⟨target, addressed, callable, noClass, allowed⟩
    exact ⟨_, target, addressed, callable, noClass, allowed, rfl⟩

theorem isAllowed_of_mem {names : List Text} (found : i.allowed.find? scope = some names)
    (inside : name ∈ names) : i.isAllowed scope name = true := by
  rw [isAllowed, found]
  exact List.contains_iff_mem.mpr inside

/-- An offer is accepted if it is not denied and passes the checks that completion leaves out, and
only then: completion has made the others. -/
theorem Offered.accepted_iff (named : i.WellNamed) (offered : i.Offered h s offer) :
    i.Accepted h s offer ↔ findViolation offer.command = none ∧ i.Fit h s offer := by
  rw [Interpreter.accepted_iff (offered.first_named named)]
  refine and_congr_right fun _ => ?_
  -- what is left are the checks of the plan; how the offer came about answers those not in `Fit`
  have word {root : Text} {v : Value} (found : i.context.find? root = some v) :
      Command.isName root = true := named.words _ (Table.mem_of_find? found)
  cases offered with
  | construct found constructed =>
    refine (and_iff_right (word found)).trans ?_
    simp only [Offer.asked, planCommand, planConstruction_eq_ok_iff, Fit]
    constructor
    · rintro ⟨_, target, _, binds, callable, _⟩
      exact ⟨target, binds, callable⟩
    · rintro ⟨target, binds, callable⟩
      exact ⟨_, target, constructed, binds, callable, rfl⟩
  | root stands noCall =>
    have given : ∃ action, i.planCommand h s (Offer.root _).asked = .ok action :=
      ⟨_, planCommand_property_eq_ok_iff.mpr ⟨_, ⟨_, named.binds stands.found, .here⟩, rfl⟩⟩
    exact iff_of_true ⟨word stands.found, given⟩ trivial
  | @call root v stands callable =>
    have words : Path.WellNamed ⟨root, [], by simp⟩ :=
      List.forall_mem_singleton.mpr (word stands.found)
    refine (and_iff_right words).trans (exists_planCall_iff.trans ?_)
    constructor
    · rintro ⟨_, _, _, _, allowed⟩
      exact allowed
    · intro allowed
      exact ⟨v, ⟨v, named.binds stands.found, .here⟩, callable, stands.noClass, allowed⟩
  | own stands allowed inside has =>
    refine and_congr_right fun _ => exists_planCall_iff.trans ?_
    simp only [Path.scope, Path.name, List.dropLast_singleton, List.getLastD_cons,
      List.getLastD_nil, isAllowed_of_mem allowed inside, and_true]
  | deeper stands allowed other inside has =>
    refine and_congr_right fun _ => exists_planCall_iff.trans ?_
    simp only [Path.scope, Path.name, List.dropLast_cons_cons, List.dropLast_singleton,
      List.getLastD_cons, List.getLastD_nil, isAllowed_of_mem allowed inside, and_true]

/-- What the command of an offer leads to: the value of a name, or one call, without arguments, of
what is addressed. -/
def Reached (i : Interpreter) (h : Host σ) (s : σ) : Offer → Prop
  | .root name => ∃ v, i.Binds name v ∧ i.executeOn h s name = (.returned v, s)
  | .call path => ∃ target, i.Addresses h s path target ∧
      i.calls h s (Offer.call path).command = [⟨target, []⟩]
  | .construct name => ∃ target, i.Binds name target ∧
      i.calls h s (Offer.construct name).command = [⟨target, []⟩]

theorem Accepted.reached (accepted : i.Accepted h s offer) : i.Reached h s offer := by
  obtain ⟨action, parsed, planned⟩ := accepted
  have plan : i.plan h s offer.command = .ok action :=
    plan_eq_ok_iff.mpr ⟨_, parse_eq_ok_iff.mp parsed, planned⟩
  cases offer with
  | root name =>
    obtain ⟨v, ⟨root, binds, reaches⟩, rfl⟩ := planCommand_property_eq_ok_iff.mp planned
    cases reaches
    exact ⟨v, binds, executeOn_of_plan_give plan⟩
  | call path =>
    obtain ⟨target, addressed, _, _, _, rfl⟩ := planCall_eq_ok_iff.mp planned
    exact ⟨target, addressed, calls_of_plan plan⟩
  | construct name =>
    obtain ⟨target, _, binds, _, rfl⟩ := planConstruction_eq_ok_iff.mp planned
    exact ⟨target, binds, calls_of_plan plan⟩

/-- A command of words that is not denied is planned as what is offered. -/
theorem plan_command (named : Command.isName offer.first = true) (words : offer.WellNamed)
    (clean : findViolation offer.command = none) :
    i.plan h s offer.command = i.planCommand h s offer.asked := by
  have parsed : parse (h.now s) offer.command = .ok (some offer.asked) := by
    rw [parse_eq_ok_iff, Offer.normalize_command named, ← findViolation_eq_none_iff,
      Offer.parse_command_iff]
    exact ⟨clean, words⟩
  rw [plan, parsed]

/-- A command of words that is not accepted fails a check, and calls nothing. -/
theorem refused_of_not_accepted (named : Command.isName offer.first = true)
    (words : offer.WellNamed) (refused : ¬i.Accepted h s offer) :
    (∃ f, i.executeOn h s offer.command = (.failed (.execution f), s)) ∧
      i.calls h s offer.command = [] := by
  cases planned : i.plan h s offer.command with
  | error f => exact ⟨⟨f, executeOn_of_plan_error planned⟩, calls_of_plan_error planned⟩
  | ok action =>
    obtain ⟨_, admitted, _⟩ := plan_eq_ok_iff.mp planned
    have clean : findViolation offer.command = none := by
      rw [← Offer.normalize_command named]
      exact findViolation_eq_none_iff.mpr admitted.1
    rw [plan_command named words clean] at planned
    exact (refused ((accepted_iff named).mpr ⟨clean, words, action, planned⟩)).elim

/-! ### Offered and accepted -/

/-- The completions are the texts of what is offered. An offer is accepted exactly if it is not
denied and passes the checks that completion leaves out. An accepted offer gives the value or makes
the call that it addresses; one of words that is not accepted fails and calls nothing. -/
theorem completions_accepted_iff {options : List Text} (named : i.WellNamed)
    (listed : i.completionsOn h s = .ok options) :
    (∀ option, option ∈ options ↔ ∃ offer, i.Offered h s offer ∧ offer.text = option) ∧
      ∀ offer, i.Offered h s offer →
        (i.Accepted h s offer ↔ findViolation offer.command = none ∧ i.Fit h s offer) ∧
        (i.Accepted h s offer → i.Reached h s offer) ∧
        (offer.WellNamed → ¬i.Accepted h s offer →
          (∃ f, i.executeOn h s offer.command = (.failed (.execution f), s)) ∧
            i.calls h s offer.command = []) :=
  ⟨fun _ => mem_completions_iff named listed, fun _ offered =>
    ⟨offered.accepted_iff named, Accepted.reached,
      refused_of_not_accepted (offered.first_named named)⟩⟩

theorem forCalendar_wellNamed : forCalendar.WellNamed where
  words := by decide
  bound := by simp [forCalendar]
  distinct := by decide
  scopes := by decide

/-- To undo the last change of the calendar. -/
def undo : Offer :=
  .call ⟨"calendar".toText, ["state".toText, "undo".toText], by simp⟩

/-- Completion offers to undo, and the command that completes the offer makes one call. -/
theorem forCalendar_offers_undo :
    let w := World.fresh ⟨0, none, by decide⟩
    undo.text ∈ forCalendar.completions w ∧
      ∃ target, forCalendar.calls World.host w undo.command = [⟨target, []⟩] := by
  intro w
  obtain ⟨options, offers⟩ := completions_accepted_iff forCalendar_wellNamed
    (forCalendar.completionsOn_world w)
  have stands : forCalendar.Stands World.host w "calendar".toText .calendar :=
    ⟨rfl, by decide, rfl⟩
  have offered : forCalendar.Offered World.host w undo :=
    .deeper stands rfl (by decide) (by decide) ⟨by decide, _, rfl⟩
  have reaches : Reaches World.host w .calendar ["state".toText, "undo".toText]
      (.method .undoHistory "undo".toText) :=
    .step (by decide) rfl (.step (by decide) rfl .here)
  have binds := forCalendar_wellNamed.binds stands.found
  obtain ⟨accepted_iff, reached, _⟩ := offers undo offered
  have accepted := accepted_iff.mpr ⟨by decide +kernel, List.all_eq_true.mp (by decide), _,
    ⟨_, binds, reaches⟩, rfl, rfl⟩
  obtain ⟨target, _, called⟩ := reached accepted
  exact ⟨(options _).mpr ⟨undo, offered, rfl⟩, target, called⟩

/-- A box with a tray on which nothing can be called, and an allow-list for trays. -/
def withTray : Interpreter :=
  { context := [("box".toText, .object "Box".toText [("tray".toText, .object "Tray".toText [])])]
    allowed := [("tray".toText, ["lift".toText])] }

/-- To lift the tray in the box. -/
def liftTray : Offer :=
  .call ⟨"box".toText, ["tray".toText, "lift".toText], by simp⟩

theorem withTray_wellNamed : withTray.WellNamed where
  words := by decide
  bound := by simp [withTray]
  distinct := by decide
  scopes := by decide

/-- Completion offers to lift the tray, but the command fails: a tray has no such member. -/
theorem withTray_offers_missing :
    let w := World.fresh ⟨0, none, by decide⟩
    withTray.WellNamed ∧ liftTray.text ∈ withTray.completions w ∧
      withTray.execute w liftTray.command =
        (.failed (.execution (.refused (.noMember "lift".toText "tray".toText))), w) := by
  intro w
  have stands : withTray.Stands World.host w "box".toText
      (.object "Box".toText [("tray".toText, .object "Tray".toText [])]) :=
    ⟨rfl, List.not_mem_nil, rfl⟩
  have offered : withTray.Offered World.host w liftTray :=
    .deeper stands rfl (by decide) List.mem_cons_self ⟨by decide, _, rfl⟩
  have planned : withTray.plan World.host w liftTray.command =
      .error (.refused (.noMember "lift".toText "tray".toText)) := by
    have words : liftTray.WellNamed := List.all_eq_true.mp (by decide)
    rw [plan_command (by decide) words (by decide +kernel)]
    rfl
  exact ⟨withTray_wellNamed,
    (mem_completions_iff withTray_wellNamed (withTray.completionsOn_world w)).mpr
      ⟨_, offered, rfl⟩,
    executeOn_of_plan_error planned⟩

end Interpreter

end GuardedConsole
