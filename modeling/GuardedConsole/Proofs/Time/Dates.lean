import Mathlib
import GuardedConsole.Time.Moment

/-!
# Dates and moments taken apart

Taking a day number apart gives a date of the calendar (`Civil.isValid_ofDay`) with that number
(`Civil.dayNumber_ofDay`). So a moment is made again of the parts it is taken into:
`Moment.ofFields_fields`.
-/

namespace GuardedConsole.Time

/-! ### Years -/

/-- The days of a year are those before its thirteenth month. -/
theorem daysBeforeMonth_thirteen (year : Nat) :
    daysBeforeMonth year 13 = if isLeap year then 366 else 365 := by
  simp only [daysBeforeMonth, daysInMonth]
  split <;> rfl

theorem daysInMonth_le (year month : Nat) : daysInMonth year month ≤ 31 := by
  unfold daysInMonth
  split
  · split <;> decide
  all_goals decide

theorem isLeap_iff (year : Nat) :
    isLeap year = true ↔ year % 4 = 0 ∧ (year % 100 ≠ 0 ∨ year % 400 = 0) := by
  simp [isLeap]

namespace Civil

variable {n year month fuel : Nat} {date : Civil}

/-- The cycles of 400, 100, 4 and 1 years that a day number is taken into. The last century of its
cycle, and the last year of a cycle of four, may have one more day. -/
theorem yearOfDay_cycles (n : Nat) : ∃ quadricentury century quadrennium lone rest,
    yearOfDay n =
      (400 * quadricentury + 100 * century + 4 * quadrennium + lone + 1, rest) ∧
    n = 146097 * quadricentury + 36524 * century + 1461 * quadrennium + 365 * lone + rest ∧
    century ≤ 3 ∧ quadrennium ≤ 24 ∧ lone ≤ 3 ∧ rest ≤ 365 ∧
    (rest = 365 → lone = 3 ∧ (quadrennium = 24 → century = 3)) := by
  refine ⟨_, _, _, _, _, rfl, ?_⟩
  omega

/-- The days before the year and the days in it make up the day number. -/
theorem yearOfDay_spec (n : Nat) :
    daysBeforeYear (yearOfDay n).1 + (yearOfDay n).2 = n ∧
      (yearOfDay n).2 < daysBeforeMonth (yearOfDay n).1 13 := by
  obtain ⟨quadricentury, century, quadrennium, lone, rest, split, whole, centuries, quadrennia, years,
    days, last⟩ := yearOfDay_cycles n
  rw [split, daysBeforeMonth_thirteen]
  dsimp only
  constructor
  · simp only [daysBeforeYear]
    omega
  · by_cases full : rest = 365
    · have leap : isLeap (400 * quadricentury + 100 * century + 4 * quadrennium + lone + 1) = true := by
        rw [isLeap_iff]
        omega
      rw [if_pos leap]
      omega
    · split <;> omega

theorem yearOfDay_pos (n : Nat) : 1 ≤ (yearOfDay n).1 :=
  Nat.le_add_left 1 _

theorem yearOfDay_le (inCalendar : n < dayCount) : (yearOfDay n).1 ≤ 9999 := by
  obtain ⟨quadricentury, century, quadrennium, lone, rest, split, whole, centuries, quadrennia, years,
    days, last⟩ := yearOfDay_cycles n
  rw [dayCount] at inCalendar
  rw [split]
  dsimp only
  omega

/-! ### Months -/

theorem daysBeforeMonth_succ (positive : 1 ≤ month) :
    daysBeforeMonth year (month + 1) = daysBeforeMonth year month + daysInMonth year month := by
  obtain ⟨before, rfl⟩ := Nat.exists_eq_succ_of_ne_zero (Nat.ne_of_gt positive)
  rfl

/-- The month that is found has the day: the days before it and the day's place in it make up those
counted. -/
theorem monthFrom_spec (positive : 1 ≤ month)
    (inside : daysBeforeMonth year month + n < daysBeforeMonth year (month + fuel + 1)) :
    month ≤ (monthFrom year fuel month n).1 ∧ (monthFrom year fuel month n).1 ≤ month + fuel ∧
      (monthFrom year fuel month n).2 < daysInMonth year (monthFrom year fuel month n).1 ∧
      daysBeforeMonth year (monthFrom year fuel month n).1 + (monthFrom year fuel month n).2 =
        daysBeforeMonth year month + n := by
  induction fuel generalizing month n with
  | zero =>
    rw [Nat.add_zero, daysBeforeMonth_succ positive] at inside
    exact ⟨Nat.le_refl _, Nat.le_refl _, Nat.lt_of_add_lt_add_left inside, rfl⟩
  | succ fuel ih =>
    rw [monthFrom]
    split
    · rename_i here
      exact ⟨Nat.le_refl _, Nat.le_add_right _ _, here, rfl⟩
    · rename_i later
      have next : daysBeforeMonth year (month + 1) = _ := daysBeforeMonth_succ positive
      have passed : daysBeforeMonth year (month + 1) + (n - daysInMonth year month) =
          daysBeforeMonth year month + n := by omega
      have inside' : daysBeforeMonth year (month + 1) + (n - daysInMonth year month) <
          daysBeforeMonth year (month + 1 + fuel + 1) := by
        rw [passed, show month + 1 + fuel + 1 = month + (fuel + 1) + 1 by omega]
        exact inside
      obtain ⟨above, below, inMonth, total⟩ := ih (Nat.le_add_left 1 _) inside'
      exact ⟨by omega, by omega, inMonth, total.trans passed⟩

theorem monthFrom_first (inYear : n < daysBeforeMonth year 13) :
    1 ≤ (monthFrom year 11 1 n).1 ∧ (monthFrom year 11 1 n).1 ≤ 12 ∧
      (monthFrom year 11 1 n).2 < daysInMonth year (monthFrom year 11 1 n).1 ∧
      daysBeforeMonth year (monthFrom year 11 1 n).1 + (monthFrom year 11 1 n).2 = n := by
  have start : daysBeforeMonth year 1 = 0 := rfl
  have spec := @monthFrom_spec n year 1 11 (Nat.le_refl 1)
    (by rw [start, Nat.zero_add]; exact inYear)
  rw [start, Nat.zero_add] at spec
  exact spec

/-! ### Dates -/

/-- The date is in the calendar. -/
structure IsValid (date : Civil) : Prop where
  year_pos : 1 ≤ date.year
  year_le : date.year ≤ 9999
  month_pos : 1 ≤ date.month
  month_le : date.month ≤ 12
  day_pos : 1 ≤ date.day
  day_le : date.day ≤ daysInMonth date.year date.month

theorem IsValid.day_le_31 (valid : date.IsValid) : date.day ≤ 31 :=
  Nat.le_trans valid.day_le (daysInMonth_le _ _)

/-- The year and the month of a day number, and the days before it in each. -/
theorem exists_ofDay (n : Nat) : ∃ year rest month before, yearOfDay n = (year, rest) ∧
    monthFrom year 11 1 rest = (month, before) ∧ ofDay n = ⟨year, month, before + 1⟩ := by
  cases place : yearOfDay n with
  | mk year rest =>
    cases found : monthFrom year 11 1 rest with
    | mk month before =>
      refine ⟨year, rest, month, before, rfl, found, ?_⟩
      rw [ofDay, place]
      dsimp only
      rw [found]

theorem dayNumber_ofDay (n : Nat) : (ofDay n).dayNumber = n := by
  obtain ⟨year, rest, month, before, place, found, taken⟩ := exists_ofDay n
  obtain ⟨inYears, inYear⟩ := yearOfDay_spec n
  rw [place] at inYears inYear
  obtain ⟨_, _, _, inMonths⟩ := monthFrom_first inYear
  rw [found] at inMonths
  rw [taken]
  simp only [dayNumber, Nat.add_sub_cancel, Nat.add_assoc, inMonths]
  exact inYears

theorem isValid_ofDay (inCalendar : n < dayCount) : (ofDay n).IsValid := by
  obtain ⟨year, rest, month, before, place, found, taken⟩ := exists_ofDay n
  obtain ⟨_, inYear⟩ := yearOfDay_spec n
  have first := yearOfDay_pos n
  have last := yearOfDay_le inCalendar
  rw [place] at inYear first last
  obtain ⟨positive, atMost, inMonth, _⟩ := monthFrom_first inYear
  rw [found] at positive atMost inMonth
  rw [taken]
  exact ⟨first, last, positive, atMost, Nat.le_add_left 1 _, inMonth⟩

end Civil

/-! ### Moments -/

theorem Fields.fault?_eq_none {f : Fields} (valid : (Civil.mk f.year f.month f.day).IsValid)
    (hour : f.hour < 24) (minute : f.minute < 60) (second : f.second < 60)
    (micro : f.micro < secondMicros) : f.fault? = none := by
  obtain ⟨year_pos, year_le, month_pos, month_le, day_pos, day_le⟩ := valid
  dsimp only at year_pos year_le month_pos month_le day_pos day_le
  rw [fault?, if_neg (by omega), if_neg (by omega), if_neg (by omega),
    if_neg (Nat.not_le.mpr hour), if_neg (Nat.not_le.mpr minute), if_neg (Nat.not_le.mpr second),
    if_neg (Nat.not_le.mpr micro)]

namespace Moment

variable (m : Moment)

theorem dayNumber_lt : m.dayNumber < dayCount :=
  Nat.div_lt_of_lt_mul (by rw [Nat.mul_comm]; exact m.inSpan)

theorem isValid_date : m.date.IsValid :=
  Civil.isValid_ofDay m.dayNumber_lt

theorem dayNumber_date : m.date.dayNumber = m.dayNumber :=
  Civil.dayNumber_ofDay _

/-- The date among the parts of a moment. -/
theorem date_fields : Civil.mk m.fields.year m.fields.month m.fields.day = m.date := by
  cases date : m.date with
  | mk year month day => simp only [fields, date]

theorem hour_lt : m.fields.hour < 24 := by
  have inDay : m.ticks % dayMicros < dayMicros := Nat.mod_lt _ (by decide)
  simp only [fields, secondMicros, dayMicros] at inDay ⊢
  omega

theorem minute_lt : m.fields.minute < 60 :=
  Nat.mod_lt _ (by decide)

theorem second_lt : m.fields.second < 60 :=
  Nat.mod_lt _ (by decide)

theorem micro_lt : m.fields.micro < secondMicros :=
  Nat.mod_lt _ (by decide)

theorem fault?_fields : m.fields.fault? = none := by
  have valid : (Civil.mk m.fields.year m.fields.month m.fields.day).IsValid := by
    rw [date_fields]
    exact m.isValid_date
  exact Fields.fault?_eq_none valid m.hour_lt m.minute_lt m.second_lt m.micro_lt

theorem ticks_fields : m.fields.ticks = m.ticks := by
  rw [Fields.ticks, date_fields, dayNumber_date]
  simp only [dayNumber, fields, secondMicros, dayMicros]
  omega

/-- A moment is made again of its parts, with whatever offset. -/
theorem ofFields_fields (offset : Option Offset) :
    ofFields m.fields offset = .ok ⟨m.ticks, offset, m.inSpan⟩ := by
  have inSpan : m.fields.ticks < spanMicros := by
    rw [ticks_fields]
    exact m.inSpan
  rw [ofFields, fault?_fields]
  dsimp only
  rw [dif_pos inSpan]
  simp only [ticks_fields]

end Moment

end GuardedConsole.Time
