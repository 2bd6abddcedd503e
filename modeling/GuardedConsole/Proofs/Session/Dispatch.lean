import GuardedConsole.Proofs.Session.Running

/-!
# Texts that call the calendar

A text `Calls` a method of the calendar if it reads as the method's path with arguments, and
`CallsHistory` is the same for the methods of its history. `step_of_calls` and
`step_of_callsHistory` say what such a text does. `calls_of_plan` shows that no other text makes the
interpreter call a method of the calendar: none is reached by another path.
-/

namespace GuardedConsole

open Time Calendar

/-- A call of anything but a method of the calendar leaves the calendar, or uses up numbers for ids,
or carries out a method of the store or of the history. -/
theorem World.call_elsewhere (w : World) {target : Value} (arguments : List Value)
    (other : ∀ name m, method? name = some m → target ≠ .method .calendar name) :
    (w.call target arguments).2.calendar = w.calendar ∨
      (∃ number, (w.call target arguments).2.calendar =
        { w.calendar with store := { w.calendar.store with nextNumber := number } }) ∨
      (∃ m, w.call target arguments = w.changed (w.calendar.callStore w.now m arguments)) ∨
      ∃ m, w.call target arguments = w.changed (w.calendar.callHistory m arguments) := by
  cases target with
  | eventClass =>
    simp only [call, construct]
    split
    · exact .inl rfl
    · exact .inr (.inl ⟨_, rfl⟩)
  | method owner name =>
    simp only [call, callMethod]
    cases owner with
    | calendar =>
      dsimp only
      split
      · rename_i m found
        exact absurd rfl (other name m found)
      · exact .inl rfl
    | eventStore =>
      dsimp only
      split
      · exact .inr (.inr (.inl ⟨_, rfl⟩))
      · exact .inl rfl
    | undoHistory =>
      dsimp only
      split
      · exact .inr (.inr (.inr ⟨_, rfl⟩))
      · exact .inl rfl
    | event | eventClass | presenter =>
      dsimp only
      split <;> exact .inl rfl
    | _ => exact .inl rfl
  | _ => exact .inl rfl

namespace Session

variable {w : World} {now : Moment} {t name : Text} {m : Method} {arguments : List Value}
  {v member target root : Value} {names : List Text}

/-- The path of a method of the calendar. -/
def methodPath (m : Method) : Path :=
  ⟨"calendar".toText, [m.form.1.toText], by simp⟩

/-- The text reads as a call of a method of the calendar. -/
def Calls (now : Moment) (t : Text) (m : Method) (arguments : List Value) : Prop :=
  Interpreter.parse now t = .ok (some (.call (methodPath m) arguments))

/-- A text that is not denied and has the shape of a call without arguments reads as that call. -/
theorem parse_of_shape (now : Moment) {path : Path}
    (clean : Screening.validate (Screening.normalize t) = .ok ())
    (shape : Command.shape? (Screening.normalize t) = some (.call path [])) :
    Interpreter.parse now t = .ok (some (.call path [])) := by
  rw [Interpreter.parse, clean]
  dsimp only
  rw [Command.parse, shape]
  rfl

theorem mem_methods (m : Method) : m ∈ methods := by
  cases m <;> decide

/-- Every method is found under its name, which is public, allowed and not that of a field. -/
theorem methods_named : ∀ m ∈ methods, method? m.form.1.toText = some m ∧
    m.form.1.toText.head? ≠ some (.char '_') ∧
    Interpreter.forCalendar.isAllowed "calendar".toText m.form.1.toText = true ∧
    ∀ field ∈ ["event_store", "state", "view", "timezone", "current_date"],
      field.toText ≠ m.form.1.toText := by
  decide +kernel

theorem method?_form (m : Method) : method? m.form.1.toText = some m :=
  (methods_named m (mem_methods m)).1

theorem form_of_method? (found : method? name = some m) : m.form.1.toText = name := by
  simpa using List.find?_some found

theorem planCall_methodPath (w : World) (m : Method) (arguments : List Value) :
    Interpreter.forCalendar.planCall World.host w (methodPath m) arguments =
      .ok (.invoke (.method .calendar m.form.1.toText) arguments) := by
  obtain ⟨_, shown, listed, other⟩ := methods_named m (mem_methods m)
  have noField : (World.calendarFields w.calendar).find? m.form.1.toText = none := by
    simp only [List.forall_mem_cons] at other
    simp only [World.calendarFields, Table.find?, other, if_false]
  have found : World.host.member? w m.form.1.toText .calendar =
      .ok (some (.method .calendar m.form.1.toText)) := by
    show Except.ok (w.member? m.form.1.toText .calendar) = _
    simp only [World.member?, Value.resolve, noField, method?_form, Option.none_or,
      Option.isSome_some, World.methodIf, if_true]
  have bound : Interpreter.forCalendar.Binds "calendar".toText .calendar :=
    ⟨by simp [Interpreter.forCalendar, Table.find?], by simp⟩
  exact Interpreter.planCall_eq_ok_iff.mpr ⟨_, ⟨_, bound, .step shown found .here⟩, rfl, rfl,
    Interpreter.isAllowed_iff.mp listed, rfl⟩

theorem plan_of_calls (calls : Calls w.now t m arguments) :
    Interpreter.forCalendar.plan World.host w t =
      .ok (.invoke (.method .calendar m.form.1.toText) arguments) := by
  have clock : World.host.now w = w.now := rfl
  rw [Interpreter.plan, clock, calls]
  exact planCall_methodPath w m arguments

/-! ### What can be reached -/

/-- A value that is not the calendar and leads to no method of it. -/
def Aside : Value → Prop
  | .null | .int _ | .text _ | .moment _ | .eventStore | .undoHistory | .eventClass | .help => True
  | .method owner _ => owner ≠ .calendar
  | _ => False

theorem aside_methodIf {known : Bool} {owner : Value} (other : owner ≠ .calendar)
    (found : World.methodIf known owner name = some member) : Aside member := by
  unfold World.methodIf at found
  split at found
  · cases found
    exact other
  · cases found

theorem aside_member (aside : Aside v) (found : w.member? name v = some member) :
    Aside member := by
  unfold World.member? at found
  cases v with
  | moment m =>
    simp only [Value.resolve] at found
    split at found
    · cases found
      trivial
    · exact aside_methodIf (by simp) found
  | text t => exact aside_methodIf (by simp) found
  | eventStore => exact aside_methodIf (by simp) found
  | undoHistory => exact aside_methodIf (by simp) found
  | eventClass => exact aside_methodIf (by simp) found
  | null | int | method | help => cases found
  | _ => cases aside

theorem aside_reached (reaches : Interpreter.Reaches World.host w v names target)
    (aside : Aside v) : Aside target := by
  induction reaches with
  | here => exact aside
  | step _ found _ ih => exact ih (aside_member aside (Except.ok.inj found))

theorem calendar_member (sound : w.calendar.Sound)
    (found : w.member? name .calendar = some member) :
    Aside member ∨ member = .method .calendar name := by
  obtain ⟨view, _, shown⟩ := sound.view
  obtain ⟨zone, named⟩ := sound.timezone
  simp only [World.member?, Value.resolve, Option.or_eq_some_iff] at found
  rcases found with field | ⟨_, method⟩
  · left
    have date : Aside (ofMoment? w.calendar.currentDate) := by
      cases w.calendar.currentDate <;> trivial
    have listed := Table.mem_of_find? field
    simp only [World.calendarFields, shown, named, List.mem_cons, Prod.mk.injEq, List.not_mem_nil,
      or_false] at listed
    rcases listed with ⟨_, rfl⟩ | ⟨_, rfl⟩ | ⟨_, rfl⟩ | ⟨_, rfl⟩ | ⟨_, rfl⟩
    · trivial
    · trivial
    · trivial
    · trivial
    · exact date
  · right
    unfold World.methodIf at method
    split at method
    · cases method
      rfl
    · cases method

theorem members_of_calendar (sound : w.calendar.Sound)
    (reaches : Interpreter.Reaches World.host w .calendar names (.method .calendar name)) :
    names = [name] := by
  cases reaches with
  | step _ found rest =>
    rcases calendar_member sound (Except.ok.inj found) with aside | rfl
    · exact absurd rfl (aside_reached rest aside)
    · cases rest with
      | here => rfl
      | step _ found _ => cases found

theorem binds_forCalendar (binds : Interpreter.forCalendar.Binds name root) :
    name = "calendar".toText ∧ root = .calendar ∨ Aside root := by
  have listed := Table.mem_of_find? binds.1
  simp only [Interpreter.forCalendar, List.mem_cons, Prod.mk.injEq, List.not_mem_nil,
    or_false] at listed
  rcases listed with calendar | ⟨_, rfl⟩ | ⟨_, rfl⟩
  · exact .inl calendar
  · exact .inr trivial
  · exact .inr trivial

theorem path_of_addressed (sound : w.calendar.Sound) {path : Path}
    (addressed : Interpreter.forCalendar.Addresses World.host w path (.method .calendar name)) :
    path.root = "calendar".toText ∧ path.members = [name] := by
  obtain ⟨root, binds, reaches⟩ := addressed
  rcases binds_forCalendar binds with ⟨named, rfl⟩ | aside
  · exact ⟨named, members_of_calendar sound reaches⟩
  · exact absurd rfl (aside_reached reaches aside)

/-! ### What is called -/

theorem calls_of_plan (sound : w.calendar.Sound)
    (planned : Interpreter.forCalendar.plan World.host w t =
      .ok (.invoke (.method .calendar name) arguments))
    (found : method? name = some m) : Calls w.now t m arguments := by
  obtain ⟨c, admitted, command⟩ := Interpreter.plan_eq_ok_iff.mp planned
  have parsed : Interpreter.parse w.now t = .ok (some c) := Interpreter.parse_eq_ok_iff.mpr admitted
  cases c with
  | property path =>
    obtain ⟨_, _, same⟩ := Interpreter.planCommand_property_eq_ok_iff.mp command
    cases same
  | call path passed =>
    obtain ⟨_, addressed, _, _, _, same⟩ := Interpreter.planCall_eq_ok_iff.mp command
    cases same
    obtain ⟨root, members⟩ := path_of_addressed sound addressed
    obtain rfl : path = methodPath m := by
      rw [methodPath, form_of_method? found, Path.mk.injEq]
      exact ⟨root, members⟩
    exact parsed
  | construct _ _ =>
    obtain ⟨_, _, binds, _, same⟩ := Interpreter.planConstruction_eq_ok_iff.mp command
    cases same
    rcases binds_forCalendar binds with ⟨_, other⟩ | aside
    · cases other
    · exact absurd rfl aside

theorem step_of_calls (calls : Calls now t m arguments) :
    step w now t =
      ((Outcome.ofExcept (w.calendar.call now m arguments).1).ofExecution,
        { w with now := now, calendar := (w.calendar.call now m arguments).2 }) := by
  have planned := plan_of_calls (w := { w with now := now }) calls
  have called : World.host.call { w with now := now } (.method .calendar m.form.1.toText)
      arguments = World.changed { w with now := now } (w.calendar.call now m arguments) := by
    show World.call _ _ _ = _
    simp only [World.call, World.callMethod, method?_form]
  rw [step, Interpreter.execute, Interpreter.executeOn_of_plan_invoke planned, called]
  rfl

/-- A text that calls no method of the calendar leaves it, or has a call made of something else with
plain data. -/
theorem step_of_not_calls (sound : w.calendar.Sound)
    (calls : ¬∃ m arguments, Calls now t m arguments) :
    (step w now t).2.calendar = w.calendar ∨
      ∃ target arguments, (∀ v ∈ arguments, v.IsData) ∧
        (∀ name m, method? name = some m → target ≠ .method .calendar name) ∧
        step w now t =
          ((World.call { w with now := now } target arguments).1.ofExecution,
            (World.call { w with now := now } target arguments).2) := by
  unfold step Interpreter.execute
  cases planned : Interpreter.forCalendar.plan World.host { w with now := now } t with
  | error cause =>
    rw [Interpreter.executeOn_of_plan_error planned]
    exact .inl rfl
  | ok action =>
    cases action with
    | give v =>
      rw [Interpreter.executeOn_of_plan_give planned]
      exact .inl rfl
    | invoke target arguments =>
      refine .inr ⟨target, arguments, (Interpreter.plan_invoke_iff.mp planned).isData, ?_,
        Interpreter.executeOn_of_plan_invoke planned⟩
      rintro name m found rfl
      exact calls ⟨m, arguments, calls_of_plan (w := { w with now := now }) sound planned found⟩

/-! ### The history -/

/-- The path of a method of the calendar's history. -/
def historyPath (m : HistoryMethod) : Path :=
  ⟨"calendar".toText, ["state".toText, m.form.1.toText], by simp⟩

/-- The text reads as a call of a method of the history. None of them has arguments. -/
def CallsHistory (now : Moment) (t : Text) (m : HistoryMethod) : Prop :=
  Interpreter.parse now t = .ok (some (.call (historyPath m) []))

/-- The text that calls a method of the history. -/
def historyText (m : HistoryMethod) : Text :=
  (historyPath m).text ++ "()".toText

theorem mem_historyMethods (m : HistoryMethod) : m ∈ historyMethods := by
  cases m <;> decide

/-- Every method of the history is found under its name, and the text that calls it is not denied and
has the shape of the call. -/
theorem historyMethods_named : ∀ m ∈ historyMethods,
    historyMethod? m.form.1.toText = some m ∧
    Screening.validate (Screening.normalize (historyText m)) = .ok () ∧
    Command.shape? (Screening.normalize (historyText m)) = some (.call (historyPath m) []) := by
  decide +kernel

theorem historyMethod?_form (m : HistoryMethod) : historyMethod? m.form.1.toText = some m :=
  (historyMethods_named m (mem_historyMethods m)).1

theorem callsHistory_historyText (now : Moment) (m : HistoryMethod) :
    CallsHistory now (historyText m) m := by
  obtain ⟨_, clean, shape⟩ := historyMethods_named m (mem_historyMethods m)
  exact parse_of_shape now clean shape

theorem planCall_historyPath (w : World) {m : HistoryMethod} (listed : m ≠ .snapshot) :
    Interpreter.forCalendar.planCall World.host w (historyPath m) [] =
      .ok (.invoke (.method .undoHistory m.form.1.toText) []) := by
  cases m with
  | snapshot => exact absurd rfl listed
  | undo | redo | canUndo | canRedo | getUndoCount | getRedoCount => rfl

theorem step_of_callsHistory {m : HistoryMethod} (calls : CallsHistory now t m)
    (listed : m ≠ .snapshot) :
    step w now t =
      ((Outcome.ofExcept (w.calendar.runHistory m).1).ofExecution,
        { w with now := now, calendar := (w.calendar.runHistory m).2 }) := by
  have planned : Interpreter.forCalendar.plan World.host { w with now := now } t =
      .ok (.invoke (.method .undoHistory m.form.1.toText) []) := by
    have clock : World.host.now { w with now := now } = now := rfl
    rw [Interpreter.plan, clock, calls]
    exact planCall_historyPath { w with now := now } listed
  have none : ([] : List Value).length = m.form.2.length := by cases m <;> rfl
  have called : World.host.call { w with now := now } (.method .undoHistory m.form.1.toText) [] =
      World.changed { w with now := now } (w.calendar.runHistory m) := by
    show World.call _ _ _ = _
    simp only [World.call, World.callMethod, historyMethod?_form, callHistory,
      checked_of_length_eq w.calendar _ _ none]
  rw [step, Interpreter.execute, Interpreter.executeOn_of_plan_invoke planned, called]
  rfl

end Session

end GuardedConsole
