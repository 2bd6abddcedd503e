import GuardedConsole.Proofs.Number.Digits
import GuardedConsole.Time.Literal

/-!
# Date literals that fail

Of the forms of a date literal, the one that moves the current moment by milliseconds
(`nowOffset?_eq_some_iff`) reports in its own words that the digits are too many or lead out of the
calendar (`stepFromNow_eq`). Every other form denotes a moment or is refused as no date
(`read_or_refused`). So `read_or_refused_iff` says which literals fail in another way.
-/

namespace GuardedConsole.Time

open Text Number

/-! ### Moving the current moment -/

/-- The microseconds from the start of the year 1 that so many milliseconds after a moment, or before
it, lead to. -/
def movedTicks (now : Moment) (back : Bool) (millis : Nat) : Int :=
  now.ticks + if back then -(millis * 1000 : Int) else millis * 1000

namespace Epoch

variable {now : Moment} {back : Bool} {millis : Nat}

/-- So many milliseconds do not leave the calendar. Then they are fewer than it has days. -/
theorem step_of_inSpan
    (inside : 0 ≤ movedTicks now back millis ∧ (movedTicks now back millis).toNat < spanMicros) :
    step now back millis = .ok ⟨(movedTicks now back millis).toNat, now.offset, inside.2⟩ := by
  have started := now.inSpan
  have few : millis / 86400000 < dayCount := by
    simp only [movedTicks, spanMicros, dayCount, dayMicros] at inside started ⊢
    cases back <;> simp only [Bool.false_eq_true, if_true, if_false] at inside <;> omega
  have word : ¬0x80000000 ≤ millis / 86400000 := by
    rw [dayCount] at few
    omega
  have days : ¬999999999 < millis / 86400000 := by
    rw [dayCount] at few
    omega
  have moved : now.shift (if back then -(millis * 1000 : Int) else millis * 1000) =
      some ⟨(movedTicks now back millis).toNat, now.offset, inside.2⟩ := dif_pos inside
  rw [step, if_neg word, if_neg days]
  dsimp only
  rw [moved]

theorem step_of_not_inSpan
    (outside : ¬(0 ≤ movedTicks now back millis ∧
      (movedTicks now back millis).toNat < spanMicros)) :
    ∃ e, step now back millis = .error e := by
  have moved : now.shift (if back then -(millis * 1000 : Int) else millis * 1000) = none := dif_neg outside
  rw [step]
  split
  · exact ⟨_, rfl⟩
  split
  · exact ⟨_, rfl⟩
  dsimp only
  rw [moved]
  exact ⟨_, rfl⟩

theorem StepError.kind_failure (e : StepError) : e.failure.kind = .outOfRange := by
  cases e <;> rfl

end Epoch

namespace Literal

variable {now : Moment} {t digits : Text} {back : Bool}

/-- The text adds the digits, as milliseconds, to the current moment, or takes them away. -/
def MovesNow (t : Text) (back : Bool) (digits : Text) : Prop :=
  Numeral.IsDigits digits ∧ ∃ before after, (∀ c ∈ before, isBlank c = true) ∧
    (∀ c ∈ after, isBlank c = true) ∧
    t = "Date.now()".toText ++ (before ++ .char (if back then '-' else '+') :: (after ++ digits))

/-- The digits are not too many, and they do not lead out of the calendar. -/
structure InReach (now : Moment) (back : Bool) (digits : Text) : Prop where
  short : digits.length ≤ maxIntegerDigits
  inSpan : 0 ≤ movedTicks now back (ofDigits digits) ∧
    (movedTicks now back (ofDigits digits)).toNat < spanMicros

theorem dropWhile_blanks_digits {blanks : Text} (blank : ∀ c ∈ blanks, isBlank c = true)
    (formed : Numeral.IsDigits digits) : (blanks ++ digits).dropWhile isBlank = digits := by
  obtain ⟨c, digits, rfl⟩ := List.exists_cons_of_ne_nil formed.filled
  have first := not_blank_of_digit (formed.all c List.mem_cons_self)
  rw [List.dropWhile_append_of_pos blank, List.dropWhile_cons_of_neg (by rw [first]; decide)]

theorem nowOffset?_eq_some_iff : nowOffset? t = some (back, digits) ↔ MovesNow t back digits := by
  constructor
  · intro read
    unfold nowOffset? at read
    dsimp only at read
    split at read
    · rename_i leading
      obtain ⟨rest, rfl⟩ := List.isPrefixOf_iff_prefix.mp leading
      rw [List.drop_left] at read
      split at read
      · rename_i sign rest' opened
        split at read
        · rename_i valid
          obtain ⟨signed, filled, all⟩ := valid
          cases read
          have whole := List.takeWhile_append_dropWhile (p := isBlank) (l := rest)
          have whole' := List.takeWhile_append_dropWhile (p := isBlank) (l := rest')
          refine ⟨⟨by simpa using filled, by simpa using all⟩, rest.takeWhile isBlank,
            rest'.takeWhile isBlank, fun c member => List.mem_takeWhile_imp member,
            fun c member => List.mem_takeWhile_imp member, ?_⟩
          have shown : CodePoint.char (if sign == '-' then '-' else '+') = sign := by
            rcases signed with rfl | rfl <;> rfl
          rw [shown, whole', ← opened, whole]
        · cases read
      · cases read
    · cases read
  · rintro ⟨formed, before, after, blank, blank', rfl⟩
    have sign : isBlank (.char (if back then '-' else '+')) = false := by
      cases back <;> decide
    have opened : (before ++ .char (if back then '-' else '+') :: (after ++ digits)).dropWhile isBlank =
        .char (if back then '-' else '+') :: (after ++ digits) := by
      rw [List.dropWhile_append_of_pos blank, List.dropWhile_cons_of_neg (by rw [sign]; decide)]
    have filled : digits.isEmpty = false := by simpa using formed.filled
    have all : digits.all isAsciiDigit = true := List.all_eq_true.mpr formed.all
    unfold nowOffset?
    dsimp only
    rw [if_pos (List.isPrefixOf_iff_prefix.mpr (List.prefix_append _ _)), List.drop_left, opened]
    dsimp only
    rw [dropWhile_blanks_digits blank' formed, filled, all]
    cases back <;> rfl

theorem readExpression_of_movesNow (moves : MovesNow t back digits) :
    readExpression now t = stepFromNow now back digits := by
  have read := nowOffset?_eq_some_iff.mpr moves
  obtain ⟨_, before, after, _, _, rfl⟩ := moves
  generalize before ++ .char (if back then '-' else '+') :: (after ++ digits) = rest at read ⊢
  have noQuote : unquote? ("Date.now()".toText ++ rest) = none := rfl
  have noNumeral : Numeral.read? ("Date.now()".toText ++ rest) = none := rfl
  rw [readExpression, if_neg (by rintro ⟨⟩), noQuote, noNumeral, read]

/-- What comes of a literal that moves the current moment: its digits are counted before anything
else, and only then the calendar is looked at. -/
theorem stepFromNow_eq (now : Moment) (back : Bool) (digits : Text) :
    (∀ reach : InReach now back digits, stepFromNow now back digits =
      .ok ⟨(movedTicks now back (ofDigits digits)).toNat, now.offset, reach.inSpan.2⟩) ∧
    (maxIntegerDigits < digits.length →
      stepFromNow now back digits = .error (.fault .badValue (tooManyDigits digits.length))) ∧
    (digits.length ≤ maxIntegerDigits → ¬InReach now back digits →
      ∃ f, stepFromNow now back digits = .error f ∧ f.kind = .outOfRange) := by
  refine ⟨?_, ?_, ?_⟩
  · intro reach
    rw [stepFromNow, integerOf, if_neg (Nat.not_lt.mpr reach.short)]
    simp only [Bool.false_eq_true, if_false, Int.toNat_natCast, Epoch.step_of_inSpan reach.inSpan]
  · intro long
    rw [stepFromNow, integerOf, if_pos long]
  · intro short outside
    obtain ⟨e, failed⟩ := Epoch.step_of_not_inSpan fun inside => outside ⟨short, inside⟩
    rw [stepFromNow, integerOf, if_neg (Nat.not_lt.mpr short)]
    simp only [Bool.false_eq_true, if_false, Int.toNat_natCast, failed]
    exact ⟨_, rfl, e.kind_failure⟩

/-! ### The other forms -/

/-- The literal denotes a moment or is refused as no date. -/
def ReadOrRefused (now : Moment) (t : Text) : Prop :=
  (∃ m, readExpression now t = .ok m) ∨ ∃ shown, readExpression now t = .error (notDate shown)

theorem readText_or_refused (t : Text) :
    (∃ m, readText t = .ok m) ∨ ∃ shown, readText t = .error (notDate shown) := by
  unfold readText
  split
  · exact .inl ⟨_, rfl⟩
  split
  · exact .inl ⟨_, rfl⟩
  · exact .inr ⟨_, rfl⟩

theorem read_or_refused (still : ∀ back digits, ¬MovesNow t back digits) : ReadOrRefused now t := by
  have unmoved : nowOffset? t = none :=
    Option.eq_none_iff_forall_not_mem.mpr fun (back, digits) read =>
      still back digits (nowOffset?_eq_some_iff.mp read)
  unfold ReadOrRefused readExpression
  split
  · exact .inl ⟨_, rfl⟩
  split
  · exact readText_or_refused _
  split
  · split
    · exact .inl ⟨_, rfl⟩
    · exact .inr ⟨_, rfl⟩
  · rw [unmoved]
    exact readText_or_refused _

/-- A date literal of whatever form denotes a moment or is refused as no date, unless it moves the
current moment out of reach: by digits that are too many, which is then said of them, or out of the
calendar. Within reach it denotes the moved moment, with the offset unchanged. -/
theorem read_or_refused_iff (now : Moment) (t : Text) :
    (ReadOrRefused now t ↔ ∀ back digits, MovesNow t back digits → InReach now back digits) ∧
    ∀ back digits, MovesNow t back digits →
      (∀ reach : InReach now back digits, readExpression now t =
        .ok ⟨(movedTicks now back (ofDigits digits)).toNat, now.offset, reach.inSpan.2⟩) ∧
      (maxIntegerDigits < digits.length →
        readExpression now t = .error (.fault .badValue (tooManyDigits digits.length))) ∧
      (digits.length ≤ maxIntegerDigits → ¬InReach now back digits →
        ∃ f, readExpression now t = .error f ∧ f.kind = .outOfRange) := by
  refine ⟨⟨?_, ?_⟩, ?_⟩
  · intro outcome back digits moves
    by_contra outside
    obtain ⟨_, tooLong, outOfRange⟩ := stepFromNow_eq now back digits
    rw [ReadOrRefused, readExpression_of_movesNow moves] at outcome
    by_cases short : digits.length ≤ maxIntegerDigits
    · obtain ⟨f, failed, kind⟩ := outOfRange short outside
      rw [failed] at outcome
      rcases outcome with ⟨m, read⟩ | ⟨shown, refused⟩
      · cases read
      · cases refused
        cases kind
    · rw [tooLong (Nat.lt_of_not_le short)] at outcome
      rcases outcome with ⟨m, read⟩ | ⟨shown, refused⟩
      · cases read
      · cases refused
  · intro reached
    by_cases still : ∀ back digits, ¬MovesNow t back digits
    · exact read_or_refused still
    · push Not at still
      obtain ⟨back, digits, moves⟩ := still
      obtain ⟨moved, _⟩ := stepFromNow_eq now back digits
      rw [ReadOrRefused, readExpression_of_movesNow moves]
      exact .inl ⟨_, moved (reached back digits moves)⟩
  · intro back digits moves
    rw [readExpression_of_movesNow moves]
    exact stepFromNow_eq now back digits

theorem second_after_calendar_begins :
    MovesNow "Date.now() + 1000".toText false "1000".toText ∧
      (∃ reach : InReach ⟨0, none, by decide⟩ false "1000".toText,
        readExpression ⟨0, none, by decide⟩ "Date.now() + 1000".toText =
          .ok ⟨(movedTicks ⟨0, none, by decide⟩ false (ofDigits "1000".toText)).toNat, none,
            reach.inSpan.2⟩) ∧
      ¬InReach ⟨0, none, by decide⟩ true "1000".toText ∧
      ∃ f, readExpression ⟨0, none, by decide⟩ "Date.now() -1000".toText = .error f ∧
        f.kind = .outOfRange := by
  have ahead : MovesNow "Date.now() + 1000".toText false "1000".toText :=
    ⟨⟨by decide, by decide⟩, " ".toText, " ".toText, by decide, by decide, rfl⟩
  have behind : MovesNow "Date.now() -1000".toText true "1000".toText :=
    ⟨⟨by decide, by decide⟩, " ".toText, [], by decide, by decide, rfl⟩
  have reach : InReach ⟨0, none, by decide⟩ false "1000".toText := ⟨by decide, by decide⟩
  have outside : ¬InReach ⟨0, none, by decide⟩ true "1000".toText :=
    fun reached => absurd reached.inSpan.1 (by decide)
  obtain ⟨_, outcomes⟩ := read_or_refused_iff ⟨0, none, by decide⟩ "Date.now() + 1000".toText
  obtain ⟨_, outcomes'⟩ := read_or_refused_iff ⟨0, none, by decide⟩ "Date.now() -1000".toText
  obtain ⟨moved, _⟩ := outcomes _ _ ahead
  obtain ⟨_, _, outOfRange⟩ := outcomes' _ _ behind
  exact ⟨ahead, ⟨reach, moved reach⟩, outside, outOfRange (by decide) outside⟩

/-- A literal that takes one millisecond from the start of the calendar is not refused as no date. -/
theorem millisecond_before_calendar_not_refused :
    ¬ReadOrRefused ⟨0, none, by decide⟩ "Date.now() - 1".toText := by
  have failed : readExpression ⟨0, none, by decide⟩ "Date.now() - 1".toText =
      .error RangeError.date.failure := by cbv
  rw [ReadOrRefused, failed]
  rintro (⟨m, read⟩ | ⟨shown, refused⟩)
  · cases read
  · cases refused

end Literal

end GuardedConsole.Time
