import GuardedConsole.Console.StateFile
import GuardedConsole.Proofs.Json.Texts
import GuardedConsole.Proofs.Json.Written

/-!
# State files that are written

Whole entries are read back from the state file that they are written to, at whatever moment:
`read_write`. The entries of a plain file are whole (`isWhole_of_read`), so what is read of one can be
written again.
-/

namespace GuardedConsole

open Text

/-! ### Moments are plain -/

namespace Number

theorem isHalf_of_isAsciiDigit {c : CodePoint} (digit : isAsciiDigit c = true) :
    c.isHalf = false := by
  obtain ⟨d, small, rfl⟩ := exists_digitChar digit
  interval_cases d <;> rfl

@[simp]
theorem isPlain_padded (width n : Nat) : (padded width n).IsPlain := by
  intro c member
  rcases List.mem_append.mp member with zero | digit
  · rw [List.eq_of_mem_replicate zero]
    rfl
  · exact isHalf_of_isAsciiDigit (natText_digits n c digit)

end Number

namespace Time.Iso

open Number

@[simp]
theorem isPlain_fractionText (micro : Nat) : (fractionText micro).IsPlain := by
  unfold fractionText
  split <;> simp [CodePoint.isHalf]

@[simp]
theorem isPlain_minuteText (hour minute : Nat) : (minuteText hour minute).IsPlain := by
  simp [minuteText, CodePoint.isHalf]

@[simp]
theorem isPlain_offsetText (offset : Offset) : (offsetText offset).IsPlain := by
  unfold offsetText
  dsimp only
  split <;> split <;> simp [CodePoint.isHalf]

theorem isPlain_write (m : Moment) : (write m).IsPlain := by
  unfold write writeWith
  cases m.offset <;> simp [dateText, timeText, CodePoint.isHalf]

end Time.Iso

namespace StateFile

open Json

variable {content : Text} {entries : List Text} {entry : Text} {j : Json}

theorem texts_map (entries : List Text) : texts (entries.map .text) = entries := by
  induction entries with
  | nil => rfl
  | cons entry entries ih => exact congrArg (entry :: ·) ih

/-- Whole entries are read back from what is written of them. -/
theorem read_write (whole : ∀ entry ∈ entries, entry.IsWhole) (now : Time.Moment) :
    StateFile.read (StateFile.write now entries) = .ok entries := by
  have items : ∀ item ∈ entries.map Json.text, Readable item := by
    intro item listed
    obtain ⟨entry, inside, rfl⟩ := List.mem_map.mp listed
    exact .text (whole entry inside)
  have readable : Readable (.record
      [("history".toText, .list (entries.map .text)),
        ("saved".toText, .text (Time.Iso.write now))]) := by
    have distinct : ["history".toText, "saved".toText].Nodup := by decide
    refine .record distinct ?_ ?_
    · simp only [List.forall_mem_cons]
      exact ⟨IsPlain.isWhole (by decide), IsPlain.isWhole (by decide), nofun⟩
    · simp only [List.forall_mem_cons]
      exact ⟨.list items, .text (Time.Iso.isPlain_write now).isWhole, nofun⟩
  have space : ∀ c ∈ ([.char '\n'] : Text), isSpace c = true := by decide
  rw [StateFile.read, StateFile.write, Json.read_write readable space]
  exact congrArg Except.ok (texts_map entries)

theorem hasText_of_mem_entriesOf (listed : entry ∈ entriesOf j) : HasText entry j := by
  unfold entriesOf at listed
  split at listed
  · rename_i members
    split at listed
    · rename_i items found
      obtain ⟨item, inside, text⟩ := List.mem_filterMap.mp listed
      have has : HasText entry item := by
        split at text
        · cases text
          exact .here
        · cases text
      exact .member (Table.mem_of_find? found) (.item inside has)
    · cases listed
  · cases listed

theorem isWhole_of_read (plain : content.IsPlain) (read : StateFile.read content = .ok entries) :
    ∀ entry ∈ entries, entry.IsWhole := by
  intro entry listed
  unfold StateFile.read at read
  split at read
  · rename_i document stands
    cases read
    have spelled := (read_eq_ok_iff.mp stands).spelled (hasText_of_mem_entriesOf listed)
    obtain ⟨body, inside, denotes⟩ := spelled
    exact denotes.isWhole (plain.mono inside)
  · cases read
    cases listed
  · cases read

end StateFile

end GuardedConsole
