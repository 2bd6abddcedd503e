import GuardedConsole.Calendar.EventData
import GuardedConsole.Proofs.Command.Printing
import GuardedConsole.Proofs.Text.Trimming
import GuardedConsole.Proofs.Time.Reading
import GuardedConsole.Console.Rendering

/-!
# Printed dates typed back

The text that a moment is shown as is read as that moment again, by itself or quoted inside a date
literal, with one exception: an offset without a whole second becomes that of universal time.
`printed_date_reads_back` says so of every moment.
-/

namespace GuardedConsole

open Text

namespace Time

variable {now m : Moment} {t : Text}

theorem Iso.not_blank_of_mem_write : ∀ c ∈ Iso.write m, isBlank c = false ∧ c ≠ 'Z' := by
  refine Iso.forall_mem_write m ?_ (by decide)
  intro c digit
  refine ⟨Number.not_blank_of_digit digit, ?_⟩
  rintro rfl
  cases digit

theorem Iso.trim_write (m : Moment) : (Iso.write m).trim = Iso.write m := by
  apply trim_eq_self
  · intro c first
    exact (not_blank_of_mem_write c (List.mem_of_mem_head? first)).1
  · intro c last
    exact (not_blank_of_mem_write c (List.mem_of_getLast? last)).1

namespace Literal

theorem expandZulu_write (m : Moment) : expandZulu (Iso.write m) = Iso.write m := by
  refine if_neg fun zulu => ?_
  exact (Iso.not_blank_of_mem_write _ (List.mem_of_getLast? zulu)).2 rfl

theorem readText_write (m : Moment) : readText (Iso.write m) = .ok m.reread := by
  unfold readText
  rw [Iso.trim_write, expandZulu_write, Iso.read_write]

/-- Between quotes stands a date and no expression. -/
theorem readExpression_quoted (now : Moment) (t : Text) :
    readExpression now (.char '"' :: (t ++ [.char '"'])) = readText t := by
  have content : unquote? (.char '"' :: (t ++ [.char '"'])) = some t := by
    simp [unquote?]
  unfold readExpression
  rw [content]
  rfl

end Literal

end Time

theorem Value.toMoment?_text (t : Text) : (Value.text t).toMoment? =
    ((Time.Iso.read t).map some).mapError (Time.Iso.ReadError.failure t) := rfl

namespace Literal

open Time

/-- A date literal with something between its parentheses. -/
def dateText (inner : Text) : Text :=
  "new Date(".toText ++ (inner ++ [.char ')'])

theorem dateExpression?_dateText (inner : Text) :
    dateExpression? (dateText inner) = some inner.trim := by
  have begins : "new Date(".toText.isPrefixOf (dateText inner) = true :=
    List.isPrefixOf_iff_prefix.mpr (List.prefix_append _ _)
  have closes : (dateText inner).getLast? = some (.char ')') := by
    rw [dateText, ← List.append_assoc, List.getLast?_concat]
  unfold dateExpression?
  rw [if_pos ⟨begins, closes⟩, dateText, List.drop_left, List.dropLast_concat]

theorem read_dateText (now : Moment) (inner : Text) :
    read now (dateText inner) = (Time.Literal.readExpression now inner.trim).map .moment := by
  have noKeyword : keywords.find? (dateText inner) = none := rfl
  have noQuotes : quotedContent? (dateText inner) = none := rfl
  have noNumeral : Number.Numeral.read? (dateText inner) = none := rfl
  unfold read readNested readWith
  rw [noKeyword, noQuotes, noNumeral, dateExpression?_dateText]
  dsimp only
  cases Time.Literal.readExpression now inner.trim <;> rfl

theorem read_dateText_quoted (now : Moment) (t : Text) :
    read now (dateText (.char '"' :: (t ++ [.char '"']))) =
      (Time.Literal.readText t).map .moment := by
  have kept : trim (.char '"' :: (t ++ [.char '"'])) = .char '"' :: (t ++ [.char '"']) := by
    apply trim_eq_self
    · rintro c ⟨rfl⟩
      rfl
    · intro c last
      rw [← List.cons_append, List.getLast?_concat] at last
      cases last
      rfl
  rw [read_dateText, kept, Time.Literal.readExpression_quoted]

/-- A moment is shown as its ISO text. Quoted in a date literal, as the text of a date and as a value
that a date is made of, this text denotes the moment with its offset as it is reread, so the moment
itself unless its offset is less than a second and not zero. -/
theorem printed_date_reads_back (w : World) (now m : Moment) :
    w.render (.moment m) = .returned (Iso.write m) ∧
    read now (dateText (.char '"' :: (Iso.write m ++ [.char '"']))) = .ok (.moment m.reread) ∧
    Time.Literal.readText (Iso.write m) = .ok m.reread ∧
    (Value.text (Iso.write m)).toMoment? = .ok (some m.reread) ∧
    m.reread.ticks = m.ticks ∧
    (m.reread = m ↔ ∀ offset, m.offset = some offset →
      offset.micros = 0 ∨ secondMicros ≤ offset.micros.natAbs) ∧
    ∀ offset, m.offset = some offset → offset.micros.natAbs < secondMicros →
      m.reread.offset = some .utc := by
  refine ⟨rfl, ?_, Time.Literal.readText_write m, ?_, rfl, Moment.reread_eq_self_iff, ?_⟩
  · rw [read_dateText_quoted, Time.Literal.readText_write]
    rfl
  · rw [Value.toMoment?_text, Iso.read_write]
    rfl
  · intro offset given short
    change m.offset.map Offset.reread = some .utc
    rw [given, Option.map_some, Offset.reread, if_pos short]

/-- A microsecond after the calendar begins, an hour and a half ahead of universal time. -/
def earlyAbroad : Moment :=
  ⟨1, some ⟨5400000000, by decide⟩, by decide⟩

theorem printed_early_abroad_reads_back :
    Iso.write earlyAbroad = "0001-01-01T00:00:00.000001+01:30".toText ∧
      read ⟨0, none, by decide⟩ "new Date(\"0001-01-01T00:00:00.000001+01:30\")".toText =
        .ok (.moment earlyAbroad) := by
  have shown : Iso.write earlyAbroad = "0001-01-01T00:00:00.000001+01:30".toText := by cbv
  obtain ⟨_, typed, _, _, _, same, _⟩ :=
    printed_date_reads_back (.fresh earlyAbroad) ⟨0, none, by decide⟩ earlyAbroad
  have kept : earlyAbroad.reread = earlyAbroad := by
    apply same.mpr
    rintro offset ⟨rfl⟩
    exact .inr (by decide)
  rw [shown, kept] at typed
  exact ⟨shown, typed⟩

/-- The first moment of the calendar, a microsecond ahead of universal time, is read back as a moment
of universal time. -/
theorem microsecond_offset_lost :
    Time.Literal.readText (Iso.write ⟨0, some ⟨1, by decide⟩, by decide⟩) =
        .ok ⟨0, some .utc, by decide⟩ ∧
      (⟨0, some .utc, by decide⟩ : Moment) ≠ ⟨0, some ⟨1, by decide⟩, by decide⟩ := by
  refine ⟨?_, by decide⟩
  cbv

end Literal

end GuardedConsole
