import GuardedConsole.Proofs.Json.Integers

/-!
# Numerals in JSON

A numeral that begins with a zero and goes on with digits is cut behind the zero; any other is read as
its document. So it is read as its document wherever no digit is left over: `readAtom_numeral`.
-/

namespace GuardedConsole.Json

open Text Number

variable {t rest after digits : Text} {j : Json} {n : Numeral} {negative : Bool}

/-- The document of a numeral: an integer, or a double if it has a point. -/
def ofNumeral (n : Numeral) : Json :=
  match n.fraction with
  | none => .int (if n.negative then -(ofDigits n.whole : Int) else ofDigits n.whole)
  | some _ => .float (Binary64.ofNumeral n)

/-- A whole number has no more digits than are read. -/
def IsShort (n : Numeral) : Prop :=
  n.fraction = none → n.whole.length ≤ maxIntegerDigits

theorem Stops.endsInteger (stops : Stops rest) : EndsInteger rest where
  digit := stops.no_digit
  fraction := by
    rintro d t rfl
    cases stops
  exponent := by
    rintro e sign d t rfl letter _
    rcases letter with rfl | rfl <;> cases stops

theorem integerOf_of_short (short : digits.length ≤ maxIntegerDigits) :
    integerOf negative digits = .ok (if negative then -(ofDigits digits : Int) else ofDigits digits) := by
  rw [integerOf, if_neg (Nat.not_lt.mpr short)]
  cases negative <;> rfl

/-- Digits that are not a whole number begin with a zero. -/
theorem zero_of_not_whole (formed : Numeral.IsDigits digits) (noWhole : ¬IsWholeNumber digits) :
    ∃ d ds, digits = .char '0' :: d :: ds ∧ isAsciiDigit d = true := by
  obtain ⟨filled, all⟩ := formed
  obtain ⟨c, ds, rfl⟩ := List.exists_cons_of_ne_nil filled
  by_cases zero : (c :: ds).head? = some (.char '0')
  · cases zero
    cases ds with
    | nil => exact (noWhole ⟨filled, all, .inl rfl⟩).elim
    | cons d ds => exact ⟨d, ds, rfl, all d (by simp)⟩
  · exact (noWhole ⟨filled, all, .inr zero⟩).elim

/-- Behind a zero, a digit is left over. -/
theorem readUnsigned_zero {d : CodePoint} (digit : isAsciiDigit d = true) :
    readUnsigned negative (.char '0' :: d :: t) = .ok (.int 0, d :: t) := by
  have taken : takeWhole (.char '0' :: d :: t) = some ([.char '0'], d :: t) := rfl
  have noFraction : takeFraction (d :: t) = (none, d :: t) := by
    rw [takeFraction_eq_none_iff]
    rintro e u ⟨rfl, rfl⟩
    cases digit
  have noExponent : takeExponent (d :: t) = (none, d :: t) := by
    rw [takeExponent_eq_none_iff]
    rintro e sign c u ⟨rfl, rfl⟩ (rfl | rfl) _ <;> cases digit
  rw [readUnsigned_of_parts taken noFraction noExponent]
  cases negative <;> rfl

theorem readUnsigned_decimals (whole : IsWholeNumber n.whole) (formed : n.WellFormed)
    (short : IsShort n) (stops : Stops rest) :
    readUnsigned n.negative (n.whole ++ (n.decimals ++ rest)) = .ok (ofNumeral n, rest) := by
  obtain ⟨negative, digits, fraction⟩ := n
  cases fraction with
  | none =>
    have read : readUnsigned negative (digits ++ rest) = _ :=
      readUnsigned_integer whole stops.endsInteger
    rw [readInteger, integerOf_of_short (short rfl)] at read
    exact read
  | some places =>
    obtain ⟨filled, all⟩ := formed.fraction places rfl
    have taken : takeWhole (digits ++ .char '.' :: (places ++ rest)) = _ := takeWhole_append whole rfl
    obtain ⟨_, _, noExponent⟩ := endsInteger_iff.mp stops.endsInteger
    dsimp only [Numeral.decimals, List.cons_append]
    rw [readUnsigned_of_parts taken (takeFraction_append filled all stops.no_digit) noExponent,
      ofNumeral, Binary64.ofNumeral]
    simp [numberOfParts, Except.map]

/-- A numeral is read as its document and all of it, or a digit of it is left over. -/
theorem readAtom_numeral (formed : n.WellFormed) (short : IsShort n) (stops : Stops rest)
    (read : readAtom (n.text ++ rest) = .ok (j, after)) :
    j = ofNumeral n ∧ after = rest ∨ after.head?.any isAsciiDigit = true := by
  have signed_text : n.text ++ rest = signed n.negative n.whole ++ (n.decimals ++ rest) := by
    rw [Numeral.text_eq, signed]
    cases n.negative <;> simp
  rw [signed_text, readAtom_signed formed.whole.filled formed.whole.all] at read
  by_cases whole : IsWholeNumber n.whole
  · rw [readUnsigned_decimals whole formed short stops] at read
    cases read
    exact .inl ⟨rfl, rfl⟩
  · obtain ⟨d, ds, split, digit⟩ := zero_of_not_whole formed.whole whole
    rw [split, List.cons_append, List.cons_append, readUnsigned_zero digit] at read
    cases read
    exact .inr digit

end GuardedConsole.Json
