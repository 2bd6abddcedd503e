import GuardedConsole.Proofs.Session.Dispatch

/-!
# Turning the pages of the calendar

A move of the calendar to the next page or to the previous one is taken back by the opposite move,
as long as the view stays. It can fail in two ways only, and changes nothing then: the date would
leave the calendar, or there is no date. `turning_back_restores_date` is that statement about all
sessions; a session loses its date only if it sets the date to nothing.
-/

namespace GuardedConsole

open Time Calendar

/-! ### Moves -/

/-- A move that stays in the calendar can be taken back. -/
theorem Time.Moment.shift_neg {m m' : Moment} {micros : Int} (moved : m.shift micros = some m') :
    m'.shift (-micros) = some m := by
  unfold shift at moved
  split at moved
  · cases moved
    have back : ((m.ticks + micros).toNat : Int) + -micros = m.ticks := by omega
    have inside : 0 ≤ (m.ticks : Int) ∧ m.ticks < spanMicros := ⟨Int.natCast_nonneg _, m.inSpan⟩
    simp only [shift, back, Int.toNat_natCast, dif_pos inside]
  · cases moved

namespace Calendar

variable {c : Calendar} {now : Moment} {arguments : List Value} {back : Bool} {m m' : Moment}

/-- How far a page of a view takes the date, forwards or back. -/
def stride (back : Bool) (view : Value) : Int :=
  if back then -stepMicros view else stepMicros view

theorem stride_not (back : Bool) (view : Value) : stride (!back) view = -stride back view := by
  cases back with
  | false => rfl
  | true => exact (Int.neg_neg _).symm

theorem navigate_of_shift (dated : c.currentDate = some m)
    (moved : m.shift (stride back c.view) = some m') :
    c.navigate back = (.ok (.moment m'), { c with currentDate := some m' }) := by
  rw [stride] at moved
  rw [navigate, dated]
  dsimp only
  rw [moved]

theorem navigate_of_outside (dated : c.currentDate = some m)
    (outside : m.shift (stride back c.view) = none) :
    c.navigate back = (.error RangeError.date.failure, c) := by
  rw [stride] at outside
  rw [navigate, dated]
  dsimp only
  rw [outside]

theorem navigate_of_no_date (undated : c.currentDate = none) :
    c.navigate back = (.error (noDate (if back then "-=" else "+=")), c) := by
  rw [navigate, undated]

/-- The method that turns a page, forwards or back. -/
def turning (back : Bool) : Method :=
  if back then .previous else .next

theorem call_turning (c : Calendar) (now : Moment) (back : Bool) :
    c.call now (turning back) [] = c.navigate back := by
  cases back <;> exact checked_of_length_eq c _ _ rfl

end Calendar

/-! ### Losing the date -/

/-- Only nothing denotes no moment. -/
theorem Value.toMoment?_eq_none_iff {v : Value} : v.toMoment? = .ok none ↔ v = .null := by
  have present {ε : Type} (toFailure : ε → Failure) (result : Except ε Moment) :
      (result.map some).mapError toFailure ≠ .ok none := by
    cases result <;> simp [Except.map, Except.mapError]
  cases v with
  | null => simp [toMoment?]
  | moment m => simp [toMoment?]
  | _ => simpa [toMoment?] using present _ _

namespace Calendar

variable {c : Calendar} {now : Moment} {arguments : List Value}

/-- The only call of a method that takes the date away is the one that sets it to nothing. -/
theorem call_loses_date {m : Method} (dated : c.currentDate ≠ none)
    (undated : (c.call now m arguments).2.currentDate = none) :
    m = .setCurrentDate ∧ arguments = [.null] := by
  unfold call at undated
  by_cases enough : arguments.length = m.form.2.length
  · rw [checked_of_length_eq c _ _ enough] at undated
    cases m with
    | setCurrentDate =>
      obtain ⟨v, rfl⟩ := List.length_eq_one_iff.mp enough
      simp only [run, argument, List.getElem?_cons_zero, Option.getD_some] at undated
      split at undated
      · rename_i date given
        obtain rfl : date = none := undated
        rw [Value.toMoment?_eq_none_iff.mp given]
        exact ⟨rfl, rfl⟩
      · exact absurd undated dated
    | next | previous =>
      simp only [run, navigate] at undated
      split at undated
      · exact absurd undated dated
      · split at undated
        · cases undated
        · exact absurd undated dated
    | setView =>
      simp only [run] at undated
      split at undated <;> exact absurd undated dated
    | today => cases undated
    | _ => exact absurd undated dated
  · obtain ⟨_, refused⟩ := checked_of_length_ne c "Calendar" (c.run now m arguments) enough
    rw [refused] at undated
    exact absurd undated dated

theorem currentDate_callStore (c : Calendar) (now : Moment) (m : StoreMethod)
    (arguments : List Value) :
    (c.callStore now m arguments).2.currentDate = c.currentDate := by
  unfold callStore checked
  split
  · cases m <;> rfl
  · rfl

theorem currentDate_callHistory (c : Calendar) (m : HistoryMethod) (arguments : List Value) :
    (c.callHistory m arguments).2.currentDate = c.currentDate := by
  unfold callHistory checked
  split <;> rfl

end Calendar

namespace World

/-- A call of anything but a method of the calendar leaves its date. -/
theorem currentDate_call (w : World) {target : Value} (arguments : List Value)
    (other : ∀ name m, method? name = some m → target ≠ .method .calendar name) :
    (w.call target arguments).2.calendar.currentDate = w.calendar.currentDate := by
  rcases w.call_elsewhere arguments other with same | ⟨_, numbered⟩ | ⟨m, called⟩ | ⟨m, called⟩
  · rw [same]
  · rw [numbered]
  · rw [called]
    exact currentDate_callStore _ _ m arguments
  · rw [called]
    exact currentDate_callHistory _ m arguments

end World

namespace Session

variable {w : World} {now later : Moment} {t u : Text} {back : Bool}

/-- The text sets the date to nothing. -/
def ErasesDate (now : Moment) (t : Text) : Prop :=
  Calls now t .setCurrentDate [.null]

theorem currentDate_step_of_not_calls (sound : w.calendar.Sound)
    (calls : ¬∃ m arguments, Calls now t m arguments) :
    (step w now t).2.calendar.currentDate = w.calendar.currentDate := by
  rcases step_of_not_calls sound calls with same | ⟨target, arguments, _, other, stepped⟩
  · rw [same]
  · rw [stepped]
    exact World.currentDate_call { w with now := now } arguments other

theorem erasesDate_of_step (sound : w.calendar.Sound) (dated : w.calendar.currentDate ≠ none)
    (undated : (step w now t).2.calendar.currentDate = none) : ErasesDate now t := by
  by_cases calling : ∃ m arguments, Calls now t m arguments
  · obtain ⟨m, arguments, calls⟩ := calling
    rw [step_of_calls calls] at undated
    obtain ⟨rfl, rfl⟩ := call_loses_date dated undated
    exact calls
  · rw [currentDate_step_of_not_calls sound calling] at undated
    exact absurd undated dated

/-- A session that begins with a date and ends without one has a command that sets the date to
nothing. -/
theorem exists_erasesDate {commands : List (Moment × Text)} (sound : w.calendar.Sound)
    (dated : w.calendar.currentDate ≠ none)
    (undated : (run w commands).2.calendar.currentDate = none) :
    ∃ command ∈ commands, ErasesDate command.1 command.2 := by
  induction commands generalizing w with
  | nil => exact absurd undated dated
  | cons command rest ih =>
    obtain ⟨now, t⟩ := command
    -- the first command without a date behind it is the one that erases it
    by_cases lost : (step w now t).2.calendar.currentDate = none
    · exact ⟨(now, t), List.mem_cons_self, erasesDate_of_step sound dated lost⟩
    · obtain ⟨eraser, listed, erases⟩ := ih (sound_run sound [(now, t)]) lost undated
      exact ⟨eraser, List.mem_cons_of_mem _ listed, erases⟩

/-! ### There and back -/

theorem step_turning (w : World) (calls : Calls now t (turning back) []) :
    step w now t =
      ((Outcome.ofExcept (w.calendar.navigate back).1).ofExecution,
        { w with now := now, calendar := (w.calendar.navigate back).2 }) := by
  rw [step_of_calls calls, call_turning]

/-- After a page was turned, the opposite turn, at once or behind commands that leave the view and
the date as they are, answers with the moment and makes it the date; nothing else changes. -/
def TurnsBackTo (after : World) (back : Bool) (m : Moment) : Prop :=
  ∀ between later u, Calls later u (turning !back) [] →
    let middle := (run after between).2
    middle.calendar.view = after.calendar.view →
    middle.calendar.currentDate = after.calendar.currentDate →
      (step middle later u).1 = .returned (.moment m) ∧
        (step middle later u).2.calendar = { middle.calendar with currentDate := some m }

theorem turnsBackTo_of_shift {c : Calendar} {m m' : Moment} {after : World}
    (moved : m.shift (stride back c.view) = some m')
    (left : after.calendar = { c with currentDate := some m' }) : TurnsBackTo after back m := by
  intro between later u returns middle sameView sameDate
  have dated : middle.calendar.currentDate = some m' := by rw [sameDate, left]
  have restored : m'.shift (stride (!back) middle.calendar.view) = some m := by
    rw [sameView, left, stride_not]
    exact Moment.shift_neg moved
  rw [step_turning middle returns, navigate_of_shift dated restored]
  exact ⟨rfl, rfl⟩

/-- In every session a text that turns a page, forwards or back, does one of three things. It moves
the date by the stride of the view; then the opposite turn brings back exactly the date from before,
as long as the view stays. It fails because the date would leave the calendar, or because there is no
date; then the calendar stays as it was. There is always a date unless a command of the session has
set it to nothing. -/
theorem turning_back_restores_date (start : Moment) (commands : List (Moment × Text)) (back : Bool)
    (now : Moment) (t : Text) (turns : Calls now t (turning back) []) :
    let w := reached start commands
    let after := (step w now t).2
    (∃ m m', w.calendar.currentDate = some m ∧ m.shift (stride back w.calendar.view) = some m' ∧
      (step w now t).1 = .returned (.moment m') ∧
      after.calendar = { w.calendar with currentDate := some m' } ∧ TurnsBackTo after back m) ∨
    (∃ m, w.calendar.currentDate = some m ∧ m.shift (stride back w.calendar.view) = none ∧
      (step w now t).1 = .failed (.execution RangeError.date.failure) ∧
      after.calendar = w.calendar) ∨
    (w.calendar.currentDate = none ∧
      (∃ command ∈ commands, ErasesDate command.1 command.2) ∧
      (step w now t).1 = .failed (.execution (noDate (if back then "-=" else "+="))) ∧
      after.calendar = w.calendar) := by
  intro w after
  have stepped : step w now t = _ := step_turning w turns
  have left : after.calendar = (w.calendar.navigate back).2 := by
    dsimp only [after]
    rw [stepped]
  rw [stepped]
  cases dated : w.calendar.currentDate with
  | none =>
    rw [navigate_of_no_date dated] at left ⊢
    have erased := exists_erasesDate (sound_fresh start) (by simp [World.fresh]) dated
    exact .inr (.inr ⟨rfl, erased, rfl, left⟩)
  | some m =>
    cases moved : m.shift (stride back w.calendar.view) with
    | none =>
      rw [navigate_of_outside dated moved] at left ⊢
      exact .inr (.inl ⟨m, rfl, moved, rfl, left⟩)
    | some m' =>
      rw [navigate_of_shift dated moved] at left ⊢
      exact .inl ⟨m, m', rfl, moved, rfl, left, turnsBackTo_of_shift moved left⟩

/-- The text that turns a page, forwards or back. -/
def turningText (back : Bool) : Text :=
  (methodPath (turning back)).text ++ "()".toText

/-- The texts are not denied and have the shape of the calls. -/
theorem turningText_shape : ∀ back,
    Screening.validate (Screening.normalize (turningText back)) = .ok () ∧
      Command.shape? (Screening.normalize (turningText back)) =
        some (.call (methodPath (turning back)) []) := by
  decide +kernel

theorem calls_turningText (now : Moment) (back : Bool) :
    Calls now (turningText back) (turning back) [] :=
  parse_of_shape now (turningText_shape back).1 (turningText_shape back).2

/-- The first month of a calendar is turned to the next one and back. -/
theorem turning_back_at_start :
    Calls noon (turningText false) (turning false) [] ∧
      Calls noon (turningText true) (turning true) [] ∧
      (step (step (reached noon []) noon (turningText false)).2 noon (turningText true)).1 =
        .returned (.moment noon) := by
  have turns := calls_turningText noon false
  have returns := calls_turningText noon true
  refine ⟨turns, returns, ?_⟩
  rcases turning_back_restores_date noon [] false noon (turningText false) turns with
    ⟨m, _, dated, _, _, _, restored⟩ | ⟨m, dated, outside, _⟩ | ⟨undated, _⟩
  · obtain rfl : noon = m := Option.some.inj dated
    generalize (step (reached noon []) noon (turningText false)).2 = after at restored ⊢
    exact (restored [] noon (turningText true) returns rfl rfl).1
  · cases dated
    exact absurd outside (by decide)
  · cases undated

/-- Sets the date to nothing. -/
def dateErased : List (Moment × Text) :=
  [(noon, "calendar.set_current_date(null)".toText)]

/-- Turning a page can fail although the date does not leave the calendar. -/
theorem turning_fails_without_date :
    ¬∀ start commands now f,
      (step (reached start commands) now (turningText false)).1 = .failed f →
        f = .execution RangeError.date.failure := by
  intro always
  have lost : (reached noon dateErased).calendar.currentDate = none := by decide +kernel
  have refused : (step (reached noon dateErased) noon (turningText false)).1 =
      .failed (.execution (noDate "+=")) := by
    rw [step_turning _ (calls_turningText noon false), navigate_of_no_date lost]
    rfl
  have same := always noon dateErased noon _ refused
  simp [noDate, RangeError.failure] at same

end Session

end GuardedConsole
