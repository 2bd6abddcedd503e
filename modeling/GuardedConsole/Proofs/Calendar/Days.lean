import GuardedConsole.Proofs.Calendar.Selecting

/-!
# Events of a day

The query for a day compares day numbers and admits both ends; the query for a range compares moments
and admits neither. From one midnight to the next they differ in the events that end at the first
midnight only: `day_and_range_differ_at_midnight`. This takes that no event ends before it starts.
-/

namespace GuardedConsole

open Time

namespace Time.Moment

variable {m : Moment} {day : Nat}

/-- The beginning of the day with a number. -/
def midnight (day : Nat) (inCalendar : day < dayCount) : Moment :=
  ⟨day * dayMicros, none, Nat.mul_lt_mul_of_pos_right inCalendar (by decide)⟩

/-- A day is over at the next midnight. -/
theorem dayNumber_le_iff : m.dayNumber ≤ day ↔ m.ticks < (day + 1) * dayMicros := by
  unfold dayNumber
  rw [← Nat.lt_succ_iff, Nat.div_lt_iff_lt_mul (by decide)]

/-- A day begins at its midnight. -/
theorem le_dayNumber_iff : day ≤ m.dayNumber ↔ day * dayMicros ≤ m.ticks := by
  unfold dayNumber
  rw [Nat.le_div_iff_mul_le (by decide)]

end Time.Moment

namespace EventStore

variable {s : EventStore} {listed : List Event} {e : Event} {day start stop : Value}
  {m first last : Moment}

/-- Does the event last on the day, or touch its beginning? -/
def onDay (day : Nat) (e : Event) : Bool :=
  e.start.dayNumber ≤ day && day ≤ e.stop.dayNumber

/-- Does the event last between the moments? -/
def between (first last : Moment) (e : Event) : Bool :=
  e.start.ticks < last.ticks && first.ticks < e.stop.ticks

theorem byDate_eq (given : day.toMoment? = .ok (some m)) (sorted : s.all = .ok listed) :
    s.byDate day = .ok (listed.filter (onDay m.dayNumber)) := by
  unfold byDate
  rw [given, Event.bind_ok]
  dsimp only
  rw [sorted]
  rfl

theorem byRange_of_naive (naive : ∀ e ∈ listed, e.IsNaive) (sorted : s.all = .ok listed)
    (begins : start.toMoment? = .ok (some first)) (ends : stop.toMoment? = .ok (some last))
    (left : first.offset = none) (right : last.offset = none) :
    s.byRange start stop = .ok (listed.filter (between first last)) := by
  have answers : ∀ e ∈ listed, (do
      if ← startsBefore e (some last) then endsAfter e (some first) else return false) =
        Except.ok (between first last e) := by
    intro e inside
    unfold startsBefore endsAfter
    dsimp only
    rw [Moment.isBefore_of_naive (naive e inside).start right,
      Moment.isBefore_of_naive left (naive e inside).stop, Event.bind_ok]
    by_cases before : e.start.ticks < last.ticks
    · simp [between, before]
    · simp only [between, before]
      rfl
  unfold byRange
  rw [begins, ends, Event.bind_ok, Event.bind_ok, sorted, Event.bind_ok]
  exact select_eq_filter answers

/-- A weaker test selects more. -/
theorem filter_sublist_filter {keep keep' : Event → Bool}
    (weaker : ∀ e ∈ listed, keep e = true → keep' e = true) :
    (listed.filter keep).Sublist (listed.filter keep') := by
  have again : (listed.filter keep').filter keep = listed.filter keep := by
    rw [List.filter_filter]
    apply List.filter_congr
    intro e inside
    cases kept : keep e with
    | false => rfl
    | true => exact weaker e inside kept
  rw [← again]
  exact List.filter_sublist

/-- An event of a day lasts between its midnight and the next, or ends at its midnight. -/
theorem onDay_iff (naive : e.IsNaive) (timed : e.WellTimed) {number : Nat}
    (early : number + 1 < dayCount) :
    onDay number e = true ↔
      between (.midnight number (Nat.lt_of_succ_lt early)) (.midnight (number + 1) early) e = true ∨
        e.stop = .midnight number (Nat.lt_of_succ_lt early) := by
  have ordered := naive.ticks_le timed
  have ends_at : e.stop = .midnight number (Nat.lt_of_succ_lt early) ↔
      e.stop.ticks = number * dayMicros := by
    constructor
    · intro same
      rw [same]
      rfl
    · intro same
      exact Moment.ext_of_naive naive.stop rfl same
  have next : (number + 1) * dayMicros = number * dayMicros + dayMicros := Nat.succ_mul _ _
  have long : 0 < dayMicros := by decide
  unfold onDay between Moment.midnight at *
  simp only [Bool.and_eq_true, decide_eq_true_eq, Moment.dayNumber_le_iff, Moment.le_dayNumber_iff,
    ends_at]
  omega

/-- For naive events that do not end before they start, and any value that denotes a moment of a day
before the last of the calendar: the events of the day are those between its midnight and the next,
and those that end at its midnight. Both queries answer in the order in which all events are listed,
and what the range has the day has. -/
theorem day_and_range_differ_at_midnight (s : EventStore)
    (naive : ∀ e ∈ s.events.values, e.IsNaive) (timed : ∀ e ∈ s.events.values, e.WellTimed)
    (number : Nat) (early : number + 1 < dayCount) (day start stop : Value) (m : Moment)
    (given : day.toMoment? = .ok (some m)) (dated : m.dayNumber = number)
    (begins : start.toMoment? = .ok (some (.midnight number (Nat.lt_of_succ_lt early))))
    (ends : stop.toMoment? = .ok (some (.midnight (number + 1) early))) :
    ∃ listed onDay inRange, s.all = .ok listed ∧ InOrder s.events.values listed ∧
      s.byDate day = .ok onDay ∧ s.byRange start stop = .ok inRange ∧
      onDay.Sublist listed ∧ inRange.Sublist onDay ∧
      ∀ e ∈ s.events.values, e ∈ onDay ↔
        e ∈ inRange ∨ e.stop = .midnight number (Nat.lt_of_succ_lt early) := by
  subst dated
  obtain ⟨listed, sorted, inOrder⟩ := all_of_naive naive
  have naive_listed : ∀ e ∈ listed, e.IsNaive := fun e inside =>
    naive e (inOrder.same.mem_iff.mp inside)
  have differ : ∀ e ∈ s.events.values, _ := fun e inside =>
    onDay_iff (naive e inside) (timed e inside) early
  refine ⟨listed, _, _, sorted, inOrder, byDate_eq given sorted,
    byRange_of_naive naive_listed sorted begins ends rfl rfl, List.filter_sublist, ?_, ?_⟩
  · refine filter_sublist_filter fun e inside lasts => ?_
    exact (differ e (inOrder.same.mem_iff.mp inside)).mpr (.inl lasts)
  · intro e inside
    have inside' := inOrder.same.mem_iff.mpr inside
    simp only [List.mem_filter, inside', true_and]
    exact differ e inside

/-- An event that ends at the first midnight of the calendar but one. -/
def lateShow : Event where
  id := "l".toText
  title := "Late show".toText
  start := ⟨dayMicros - Event.hourMicros.toNat, none, by decide⟩
  stop := .midnight 1 (by decide)
  allDay := false
  description := []

/-- The day that begins when the event ends has it, and the range from this midnight has not. -/
theorem lateShow_at_midnight :
    let s : EventStore := { events := [("l".toText, lateShow)] }
    let noon : Value := .text "0001-01-02T12:00".toText
    let last : Value := .moment (.midnight 2 (by decide))
    (∀ e ∈ s.events.values, e.IsNaive) ∧ (∀ e ∈ s.events.values, e.WellTimed) ∧
      (∃ m, noon.toMoment? = .ok (some m) ∧ m.dayNumber = 1) ∧
      ∃ onDay, s.byDate noon = .ok onDay ∧ lateShow ∈ onDay ∧
        s.byRange (.text "0001-01-02".toText) last = .ok [] := by
  intro s noon last
  have naive : ∀ e ∈ s.events.values, e.IsNaive := by decide
  have timed : ∀ e ∈ s.events.values, e.WellTimed := by
    rintro e (_ | ⟨_, ⟨⟩⟩)
    exact Nat.sub_le _ _
  have given : noon.toMoment? = .ok (some ⟨129600000000, none, by decide⟩) := by cbv
  have begins : (Value.text "0001-01-02".toText).toMoment? = .ok (some (.midnight 1 (by decide))) := by
    cbv
  have nothing : s.byRange (.text "0001-01-02".toText) last = .ok [] := by cbv
  obtain ⟨listed, onDay, inRange, _, _, asked, _, _, _, differ⟩ :=
    day_and_range_differ_at_midnight s naive timed 1 (by decide) noon _ last _ given (by decide)
      begins rfl
  exact ⟨naive, timed, ⟨_, given, by decide⟩, onDay, asked,
    (differ lateShow (by simp [s, Table.values])).mpr (.inr rfl), nothing⟩

end EventStore

end GuardedConsole
