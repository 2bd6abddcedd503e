import GuardedConsole.Proofs.Number.Digits
import GuardedConsole.Proofs.Time.Dates
import GuardedConsole.Time.Iso

/-!
# Written moments read back

The text of a moment is read part by part: the date (`readDate_dateText`), then a clock up to the
offset and a clock behind it (`readClock_written`). Everything is read as it was written, except that
an offset that does not amount to a second is taken for that of universal time:
`Iso.read_write`.
-/

namespace GuardedConsole.Time

open Text Number

namespace Offset

/-- The whole seconds of an offset, without its sign. -/
def seconds (offset : Offset) : Nat :=
  offset.micros.natAbs / secondMicros

/-- What is left of an offset behind its whole seconds, without its sign. -/
def micro (offset : Offset) : Nat :=
  offset.micros.natAbs % secondMicros

def sign (offset : Offset) : Int :=
  if offset.micros < 0 then -1 else 1

/-- An offset as it comes out of its text: without a whole second, it is that of universal time. -/
def reread (offset : Offset) : Offset :=
  if offset.micros.natAbs < secondMicros then .utc else offset

theorem seconds_lt (offset : Offset) : offset.seconds < 86400 := by
  have bounded := offset.bounded
  simp only [seconds, dayMicros, secondMicros] at bounded ⊢
  omega

theorem micros_eq (offset : Offset) :
    offset.sign * offset.seconds * secondMicros + offset.sign * offset.micro = offset.micros := by
  simp only [sign, seconds, micro, secondMicros]
  split <;> omega

end Offset

/-- A moment as it comes out of its text. -/
def Moment.reread (m : Moment) : Moment :=
  ⟨m.ticks, m.offset.map Offset.reread, m.inSpan⟩

theorem Offset.reread_eq_self_iff {offset : Offset} :
    offset.reread = offset ↔ offset.micros = 0 ∨ secondMicros ≤ offset.micros.natAbs := by
  unfold reread
  constructor
  · intro same
    by_cases short : offset.micros.natAbs < secondMicros
    · rw [if_pos short] at same
      rw [← same]
      exact .inl rfl
    · exact .inr (Nat.le_of_not_lt short)
  · rintro (zero | long)
    · obtain ⟨micros, bounded⟩ := offset
      obtain rfl : micros = 0 := zero
      split <;> rfl
    · rw [if_neg (Nat.not_lt.mpr long)]

theorem Moment.reread_eq_self_iff {m : Moment} :
    m.reread = m ↔ ∀ offset, m.offset = some offset →
      offset.micros = 0 ∨ secondMicros ≤ offset.micros.natAbs := by
  obtain ⟨ticks, zone, inSpan⟩ := m
  cases zone with
  | none => simp [reread]
  | some offset => simp [reread, Offset.reread_eq_self_iff]

namespace Iso

variable {t rest : Text} {k n value : Nat}

/-! ### Digits -/

theorem digits_append (all : ∀ c ∈ t, isAsciiDigit c = true) :
    digits t.length n (t ++ rest) = some (t.foldl (fun n c => 10 * n + digitOf c) n, rest) := by
  induction t generalizing n with
  | nil => rfl
  | cons c t ih =>
    rw [List.cons_append, List.length_cons, digits, if_pos (all c List.mem_cons_self),
      ih fun d later => all d (List.mem_cons_of_mem c later)]
    rfl

theorem digits_padded (positive : 0 < k) (short : n < 10 ^ k) :
    digits k 0 (padded k n ++ rest) = some (n, rest) := by
  have read := @digits_append (padded k n) rest 0 (padded_digits k n)
  rw [length_padded positive short] at read
  change _ = some (ofDigits (padded k n), rest) at read
  rwa [ofDigits_padded] at read

/-- A padded number begins with a digit. -/
theorem isAsciiDigit_peek_padded (positive : 0 < k) (short : n < 10 ^ k) :
    isAsciiDigit (peek (padded k n ++ rest)) = true := by
  have length := length_padded positive short
  cases text : padded k n with
  | nil =>
    rw [text] at length
    exact absurd length (Nat.ne_of_lt positive)
  | cons c others =>
    have digit := padded_digits k n
    rw [text] at digit
    exact digit c List.mem_cons_self

theorem peek_padded_ne_week (positive : 0 < k) (short : n < 10 ^ k) :
    ¬peek (padded k n ++ rest) = 'W' := by
  intro week
  have digit := @isAsciiDigit_peek_padded rest k n positive short
  rw [week] at digit
  exact absurd digit (by decide)

/-! ### Dates -/

section Dates

variable {date : Civil}

/-- The parts of a date fit the widths they are written in. -/
theorem parts_short (valid : date.IsValid) :
    date.year < 10 ^ 4 ∧ date.month < 10 ^ 2 ∧ date.day < 10 ^ 2 := by
  have year := valid.year_le
  have month := valid.month_le
  have day := valid.day_le_31
  omega

theorem dateText_append (date : Civil) (rest : Text) : dateText date ++ rest =
    padded 4 date.year ++ .char '-' :: (padded 2 date.month ++ .char '-' :: (padded 2 date.day ++ rest)) := by
  simp [dateText]

theorem length_dateText (valid : date.IsValid) : (dateText date).length = 10 := by
  obtain ⟨year, month, day⟩ := parts_short valid
  simp [dateText, length_padded (by decide) year, length_padded (by decide) month,
    length_padded (by decide) day]

/-- The hyphen after the year, and the digit behind it, tell the length of the date. -/
theorem dateLength_dateText (valid : date.IsValid) : dateLength (dateText date ++ rest) = 10 := by
  obtain ⟨year, month, _⟩ := parts_short valid
  have long : ¬(dateText date ++ rest).length = 7 := by
    rw [List.length_append, length_dateText valid]
    omega
  have behind : (dateText date ++ rest).drop 4 =
      .char '-' :: (padded 2 date.month ++ .char '-' :: (padded 2 date.day ++ rest)) := by
    rw [dateText_append]
    exact List.drop_left' (length_padded (by decide) year)
  have next : (dateText date ++ rest).drop 5 =
      padded 2 date.month ++ .char '-' :: (padded 2 date.day ++ rest) := by
    rw [show 5 = 4 + 1 from rfl, ← List.drop_drop, behind]
    rfl
  have hyphen : peek ((dateText date ++ rest).drop 4) = '-' := by
    rw [behind]
    rfl
  have noWeek : ¬peek ((dateText date ++ rest).drop 5) = 'W' := by
    rw [next]
    exact peek_padded_ne_week (by decide) month
  unfold dateLength
  rw [if_neg long]
  simp only [hyphen, noWeek, if_true, if_false]

theorem readDate_dateText (valid : date.IsValid) : readDate (dateText date) = some date := by
  obtain ⟨year, month, day⟩ := parts_short valid
  have whole := dateText_append date []
  rw [List.append_nil, List.append_nil] at whole
  have last := @digits_padded [] 2 date.day (by decide) day
  rw [List.append_nil] at last
  rw [whole, readDate, digits_padded (by decide) year]
  change (if peek (padded 2 date.month ++ .char '-' :: padded 2 date.day) = 'W' then _ else
    (digits 2 0 (padded 2 date.month ++ .char '-' :: padded 2 date.day)).bind _) = _
  rw [if_neg (peek_padded_ne_week (by decide) month), digits_padded (by decide) month]
  change (digits 2 0 (padded 2 date.day)).bind _ = _
  rw [last]
  rfl

end Dates

/-! ### Clocks -/

section Clocks

variable {clock : Clock} {colons : Bool} {fuel index length hour minute second micro : Nat}

theorem digit_spared (stops : isAsciiDigit (peek rest) = false) :
    rest.dropWhile isAsciiDigit = rest := by
  cases rest with
  | nil => rfl
  | cons c rest => exact List.dropWhile_cons_of_neg (by rw [show isAsciiDigit c = false from stops]; decide)

theorem readFraction_padded (short : micro < 10 ^ 6) (stops : isAsciiDigit (peek rest) = false) :
    readFraction 6 (padded 6 micro ++ rest) = some (micro, peek rest == '\x00') := by
  rw [readFraction, show min 6 6 = 6 from rfl, digits_padded (by decide) short]
  change some (micro * 1, peek (rest.dropWhile isAsciiDigit) == '\x00') = _
  rw [Nat.mul_one, digit_spared stops]

/-- The last component of a clock without a fraction. -/
theorem readComponents_last (short : value < 10 ^ 2) :
    readComponents clock colons (fuel + 1) index 2 (padded 2 value ++ rest) =
      some { clock.put index value with atEnd := peek rest == '\x00' } := by
  rw [readComponents, digits_padded (by decide) short]
  rfl

/-- A component before a colon. The colon behind the first one promises colons behind the others. -/
theorem readComponents_colon (short : value < 10 ^ 2) (more : 0 < length)
    (promised : index = 0 ∨ colons = true) :
    readComponents clock colons (fuel + 1) index (length + 3) (padded 2 value ++ .char ':' :: t) =
      readComponents (clock.put index value) true fuel (index + 1) length t := by
  have goesOn : isSpent (length + 1) ':' = false := by
    simp only [isSpent, Bool.or_eq_false_iff, Bool.and_eq_false_iff, beq_eq_false_iff_ne]
    omega
  have kept : (if index = 0 then true else colons) = true := by
    split
    · rfl
    · exact promised.resolve_left ‹_›
  rw [readComponents, digits_padded (by decide) short]
  change (if isSpent (length + 1) ':' then _ else
    if (if index = 0 then true else colons) && true then
      readComponents (clock.put index value) (if index = 0 then true else colons) fuel (index + 1)
        length t
    else _) = _
  rw [goesOn, kept]
  rfl

/-- A component before a point, and the fraction behind it. -/
theorem readComponents_point (short : value < 10 ^ 2) (short' : micro < 10 ^ 6)
    (stops : isAsciiDigit (peek rest) = false) :
    readComponents clock colons (fuel + 1) index 9
        (padded 2 value ++ .char '.' :: (padded 6 micro ++ rest)) =
      some { clock.put index value with micro := micro, atEnd := peek rest == '\x00' } := by
  rw [readComponents, digits_padded (by decide) short]
  change (if (if index = 0 then false else colons) && false then _ else
    (readFraction 6 (padded 6 micro ++ rest)).bind _) = _
  rw [Bool.and_false, readFraction_padded short' stops]
  rfl

/-- The seconds and the fraction of a clock as they stand behind the minutes. -/
def secondsText (second micro : Nat) : Text :=
  .char ':' :: padded 2 second ++ fractionText micro

/-- The text gives the seconds and the fraction of a clock, or leaves them out where there are none. -/
def GivesSeconds (t : Text) (second micro : Nat) : Prop :=
  t = secondsText second micro ∨ t = [] ∧ second = 0 ∧ micro = 0

theorem readClock_written (short : hour < 10 ^ 2) (short' : minute < 10 ^ 2) (few : second < 10 ^ 2)
    (fine : micro < 10 ^ 6) (gives : GivesSeconds t second micro)
    (stops : isAsciiDigit (peek rest) = false) :
    readClock (minuteText hour minute ++ t).length (minuteText hour minute ++ t ++ rest) =
      some ⟨hour, minute, second, micro, peek rest == '\x00'⟩ := by
  have minutes : (minuteText hour minute).length = 5 := by
    simp [minuteText, length_padded (by decide) short, length_padded (by decide) short']
  have opened (rest : Text) : minuteText hour minute ++ rest =
      padded 2 hour ++ .char ':' :: (padded 2 minute ++ rest) := by
    simp [minuteText]
  rw [List.length_append, minutes, List.append_assoc, opened, readClock]
  rcases gives with rfl | ⟨rfl, rfl, rfl⟩
  · by_cases whole : micro = 0
    · subst whole
      have length : (secondsText second 0).length = 3 := by
        simp [secondsText, fractionText, length_padded (by decide) few]
      have shown : secondsText second 0 ++ rest = .char ':' :: (padded 2 second ++ rest) := by
        simp [secondsText, fractionText]
      rw [length, shown]
      rw [readComponents_colon short (by decide) (.inl rfl),
        readComponents_colon short' (by decide) (.inr rfl), readComponents_last few]
      rfl
    · have length : (secondsText second micro).length = 10 := by
        simp [secondsText, fractionText, whole, length_padded (by decide) few,
          length_padded (by decide) fine]
      have shown : secondsText second micro ++ rest =
          .char ':' :: (padded 2 second ++ .char '.' :: (padded 6 micro ++ rest)) := by
        simp [secondsText, fractionText, whole]
      rw [length, shown]
      rw [readComponents_colon short (by decide) (.inl rfl),
        readComponents_colon short' (by decide) (.inr rfl), readComponents_point few fine stops]
      rfl
  · rw [List.length_nil, List.nil_append, readComponents_colon short (by decide) (.inl rfl),
      readComponents_last short']
    rfl

end Clocks

/-! ### Times and offsets -/

section Times

variable {f : Fields} {offset : Offset} {hour minute second micro : Nat} {c : CodePoint}

theorem not_beginsOffset_of_digit (digit : isAsciiDigit c = true) : beginsOffset c = false := by
  obtain ⟨d, small, rfl⟩ := exists_digitChar digit
  have each : ∀ d < 10, beginsOffset (digitChar d) = false := by decide
  exact each d small

/-- What holds of digits and of the marks between them holds of all that is written. -/
theorem forall_mem_minuteText {p : CodePoint → Prop} (ofDigit : ∀ c, isAsciiDigit c = true → p c)
    (colon : p ':') : ∀ c ∈ minuteText hour minute, p c := by
  intro c member
  rcases List.mem_append.mp member with inHour | inRest
  · exact ofDigit c (padded_digits 2 hour c inHour)
  rcases List.mem_cons.mp inRest with rfl | inMinute
  · exact colon
  · exact ofDigit c (padded_digits 2 minute c inMinute)

theorem forall_mem_secondsText {p : CodePoint → Prop} (ofDigit : ∀ c, isAsciiDigit c = true → p c)
    (colon : p ':') (point : p '.') : ∀ c ∈ secondsText second micro, p c := by
  intro c member
  rcases List.mem_append.mp member with inSeconds | inFraction
  · rcases List.mem_cons.mp inSeconds with rfl | inDigits
    · exact colon
    · exact ofDigit c (padded_digits 2 second c inDigits)
  · unfold fractionText at inFraction
    split at inFraction
    · cases inFraction
    · rcases List.mem_cons.mp inFraction with rfl | inDigits
      · exact point
      · exact ofDigit c (padded_digits 6 micro c inDigits)

theorem timeText_full (f : Fields) :
    timeText f .full = minuteText f.hour f.minute ++ secondsText f.second f.micro := by
  simp [timeText, secondsText]

theorem forall_mem_timeText {p : CodePoint → Prop} (ofDigit : ∀ c, isAsciiDigit c = true → p c)
    (colon : p ':') (point : p '.') : ∀ c ∈ timeText f .full, p c := by
  rw [timeText_full]
  intro c member
  rcases List.mem_append.mp member with before | behind
  · exact forall_mem_minuteText ofDigit colon c before
  · exact forall_mem_secondsText ofDigit colon point c behind

theorem takeWhile_timeText (opens : rest = [] ∨ beginsOffset (peek rest) = true) :
    (timeText f .full ++ rest).takeWhile (fun c => !beginsOffset c) = timeText f .full := by
  have clear : ∀ c ∈ timeText f .full, (!beginsOffset c) = true := by
    refine forall_mem_timeText ?_ (by decide) (by decide)
    intro c digit
    rw [not_beginsOffset_of_digit digit]
    rfl
  have stopped : rest.takeWhile (fun c => !beginsOffset c) = [] := by
    cases rest with
    | nil => rfl
    | cons c rest =>
      have sign : beginsOffset c = true := opens.resolve_left (List.cons_ne_nil c rest)
      rw [List.takeWhile_cons_of_neg (by rw [sign]; decide)]
  rw [List.takeWhile_append_of_pos clear, stopped, List.append_nil]

end Times

/-! ### Offsets -/

section Offsets

variable (offset : Offset)

/-- The clock that the text of an offset has behind the sign. -/
def Clock.ofOffset : Clock :=
  ⟨offset.seconds / 3600, offset.seconds / 60 % 60, offset.seconds % 60, offset.micro, true⟩

theorem offsetText_eq : ∃ t, GivesSeconds t (offset.seconds % 60) offset.micro ∧
    offsetText offset = .char (if offset.micros < 0 then '-' else '+') ::
      (minuteText (offset.seconds / 3600) (offset.seconds / 60 % 60) ++ t) := by
  have shown : offsetText offset = CodePoint.char (if offset.micros < 0 then '-' else '+') ::
      (minuteText (offset.seconds / 3600) (offset.seconds / 60 % 60) ++
        if offset.seconds % 60 = 0 ∧ offset.micro = 0 then []
        else secondsText (offset.seconds % 60) offset.micro) := rfl
  by_cases even : offset.seconds % 60 = 0 ∧ offset.micro = 0
  · rw [if_pos even] at shown
    exact ⟨[], .inr ⟨rfl, even⟩, shown⟩
  · rw [if_neg even] at shown
    exact ⟨_, .inl rfl, shown⟩

theorem forall_mem_offsetText {p : CodePoint → Prop} (ofDigit : ∀ c, isAsciiDigit c = true → p c)
    (marks : ∀ c ∈ "-+:.".toText, p c) : ∀ c ∈ offsetText offset, p c := by
  obtain ⟨t, gives, whole⟩ := offsetText_eq offset
  rw [whole]
  intro c member
  rcases List.mem_cons.mp member with rfl | inClock
  · apply marks
    split <;> decide
  rcases List.mem_append.mp inClock with inMinutes | inSeconds
  · exact forall_mem_minuteText ofDigit (marks _ (by decide)) c inMinutes
  rcases gives with rfl | ⟨rfl, _⟩
  · exact forall_mem_secondsText ofDigit (marks _ (by decide)) (marks _ (by decide)) c inSeconds
  · cases inSeconds

theorem readClock_offset : ∃ t,
    offsetText offset = .char (if offset.micros < 0 then '-' else '+') :: t ∧
      readClock t.length t = some (.ofOffset offset) := by
  obtain ⟨t, gives, whole⟩ := offsetText_eq offset
  have short := offset.seconds_lt
  have fine : offset.micro < 10 ^ 6 := Nat.mod_lt _ (by decide)
  have read := @readClock_written t [] (offset.seconds / 3600) (offset.seconds / 60 % 60)
    (offset.seconds % 60) offset.micro (by omega) (by omega) (by omega) fine gives rfl
  rw [List.append_nil] at read
  exact ⟨_, whole, read⟩

theorem seconds_ofOffset : (Clock.ofOffset offset).seconds = offset.seconds := by
  simp only [Clock.ofOffset, Clock.seconds]
  omega

/-- Without a whole second, the sign and the microseconds of an offset are lost. -/
theorem makeOffset_parts :
    makeOffset (offset.sign * offset.seconds) (offset.sign * offset.micro) = .ok offset.reread := by
  rw [makeOffset, Offset.reread]
  by_cases short : offset.micros.natAbs < secondMicros
  · have zero : offset.sign * (offset.seconds : Int) = 0 := by
      rw [Offset.seconds, Nat.div_eq_of_lt short]
      exact Int.mul_zero _
    rw [if_pos short, if_pos zero]
  · have some : offset.sign * (offset.seconds : Int) ≠ 0 := by
      have positive : 0 < offset.seconds := Nat.div_pos (Nat.le_of_not_lt short) (by decide)
      simp only [Offset.sign]
      split <;> omega
    rw [if_neg short, if_neg some]
    simp only [offset.micros_eq, offset.bounded, dif_pos]

end Offsets

/-! ### Moments -/

section Moments

variable (m : Moment)

/-- The clock of a moment, and whether the text ends with it. -/
def Clock.ofMoment (atEnd : Bool) : Clock :=
  ⟨m.fields.hour, m.fields.minute, m.fields.second, m.fields.micro, atEnd⟩

theorem readClock_fields (stops : isAsciiDigit (peek rest) = false) :
    readClock (timeText m.fields .full).length (timeText m.fields .full ++ rest) =
      some (.ofMoment m (peek rest == '\x00')) := by
  have hour := m.hour_lt
  have minute := m.minute_lt
  have second := m.second_lt
  rw [timeText_full]
  exact readClock_written (by omega) (by omega) (by omega) m.micro_lt (.inl rfl) stops

/-- The text of an offset, if there is one. -/
def zoneText (zone : Option Offset) : Text :=
  match zone with
  | none => []
  | some offset => offsetText offset

/-- The seconds and microseconds of an offset, with its sign. -/
def zoneParts (zone : Option Offset) : Option (Int × Int) :=
  zone.map fun offset => (offset.sign * offset.seconds, offset.sign * offset.micro)

theorem readTime_naive :
    readTime (timeText m.fields .full) = some (.ofMoment m true, none) := by
  have free := @takeWhile_timeText [] m.fields (.inl rfl)
  have read := @readClock_fields [] m rfl
  rw [List.append_nil] at free read
  rw [readTime, free, read, List.drop_length]
  rfl

theorem readTime_offset (offset : Offset) :
    readTime (timeText m.fields .full ++ offsetText offset) =
      some (.ofMoment m false, zoneParts (some offset)) := by
  obtain ⟨t, whole, read⟩ := readClock_offset offset
  have sign : ∀ c, c = CodePoint.char (if offset.micros < 0 then '-' else '+') →
      beginsOffset c = true ∧ isAsciiDigit c = false ∧ (c == '\x00') = false := by
    rintro c rfl
    split <;> decide
  obtain ⟨opens, stops, goesOn⟩ := sign (peek (offsetText offset)) (by rw [whole]; rfl)
  have free := @takeWhile_timeText (offsetText offset) m.fields (.inr opens)
  have before := @readClock_fields (offsetText offset) m stops
  rw [goesOn] at before
  rw [readTime, free, before, List.drop_left, whole, zoneParts, Option.map_some, Offset.sign,
    ← seconds_ofOffset]
  by_cases negative : offset.micros < 0
  · rw [if_pos negative, if_pos negative]
    change (readClock t.length t).bind _ = _
    rw [read]
    rfl
  · rw [if_neg negative, if_neg negative]
    change (readClock t.length t).bind _ = _
    rw [read]
    rfl

theorem exists_readTime (zone : Option Offset) : ∃ atEnd,
    readTime (timeText m.fields .full ++ zoneText zone) = some (.ofMoment m atEnd, zoneParts zone) := by
  cases zone with
  | none =>
    rw [zoneText, List.append_nil]
    exact ⟨true, readTime_naive m⟩
  | some offset => exact ⟨false, readTime_offset m offset⟩

theorem assemble_of_ofFields {date : Civil} {clock : Clock} {zone : Option Offset} {result : Moment}
    (made : Moment.ofFields ⟨date.year, date.month, date.day, clock.hour, clock.minute, clock.second,
      clock.micro⟩ (zone.map Offset.reread) = .ok result) :
    assemble date clock (zoneParts zone) = .ok result := by
  unfold assemble zoneParts
  cases zone with
  | none =>
    rw [Option.map_none] at made
    simp only [Option.map_none, made, pure_bind]
  | some offset =>
    rw [Option.map_some] at made
    simp only [Option.map_some, makeOffset_parts, Except.map_ok, made, bind, Except.bind]

/-- The parts of a moment, read from its text, make it up again. -/
theorem assemble_parts (atEnd : Bool) (zone : Option Offset) :
    assemble m.date (.ofMoment m atEnd) (zoneParts zone) =
      .ok ⟨m.ticks, zone.map Offset.reread, m.inSpan⟩ := by
  apply assemble_of_ofFields
  exact m.ofFields_fields (zone.map Offset.reread)

theorem write_eq : write m =
    dateText m.date ++ .char 'T' :: (timeText m.fields .full ++ zoneText m.offset) := by
  unfold write writeWith zoneText
  rw [List.append_assoc]
  rfl

/-- A moment is written in digits and a few marks. -/
theorem forall_mem_write {p : CodePoint → Prop} (ofDigit : ∀ c, isAsciiDigit c = true → p c)
    (marks : ∀ c ∈ "-+:.T".toText, p c) : ∀ c ∈ write m, p c := by
  have mark (c : CodePoint) (listed : c ∈ "-+:.T".toText) : p c := marks c listed
  rw [write_eq, dateText_append]
  simp only [List.mem_append, List.mem_cons]
  rintro c (inYear | rfl | inMonth | rfl | inDay | rfl | inTime | inZone)
  · exact ofDigit c (padded_digits 4 _ c inYear)
  · exact mark _ (by decide)
  · exact ofDigit c (padded_digits 2 _ c inMonth)
  · exact mark _ (by decide)
  · exact ofDigit c (padded_digits 2 _ c inDay)
  · exact mark _ (by decide)
  · exact forall_mem_timeText ofDigit (mark _ (by decide)) (mark _ (by decide)) c inTime
  · unfold zoneText at inZone
    split at inZone
    · cases inZone
    · rename_i offset _
      refine forall_mem_offsetText offset ofDigit ?_ c inZone
      intro c listed
      exact mark c (by revert c; decide)

theorem read_of_time {date : Civil} {time : Text} {clock : Clock} {zone : Option (Int × Int)}
    (valid : date.IsValid) (read : readTime time = some (clock, zone)) :
    Iso.read (dateText date ++ .char 'T' :: time) = assemble date clock zone := by
  have long : ¬(dateText date ++ .char 'T' :: time).length < 7 := by
    rw [List.length_append, length_dateText valid]
    omega
  have taken : (dateText date ++ .char 'T' :: time).take 10 = dateText date :=
    List.take_left' (length_dateText valid)
  have dropped : (dateText date ++ .char 'T' :: time).drop 10 = .char 'T' :: time :=
    List.drop_left' (length_dateText valid)
  rw [Iso.read, if_neg long, dateLength_dateText valid]
  dsimp only
  rw [taken, dropped, readDate_dateText valid]
  dsimp only
  rw [read]

/-- What is written is read again, but for an offset without a whole second. -/
theorem read_write : read (write m) = .ok m.reread := by
  obtain ⟨atEnd, time⟩ := exists_readTime m m.offset
  rw [write_eq, read_of_time m.isValid_date time]
  exact assemble_parts m atEnd m.offset

end Moments

end Iso

end GuardedConsole.Time
