import Mathlib
import GuardedConsole.Number.Digits
import GuardedConsole.Text.Basic

/-!
# Decimal digits read back

The digits of a natural number denote it (`ofDigits_natText`), and there are at most `k` of them if
it is below the `k`-th power of ten. A numeral is read back from its text (`Numeral.read?_text`), and
an integer short enough to be read as itself (`integerOf_natText`).
-/

namespace GuardedConsole.Number

open Text

variable {n d k : Nat} {t rest : Text} {i : Int}

theorem toNat_digitChar (small : d < 10) : (digitChar d).toNat = 48 + d :=
  CodePoint.toNat_ofNat (by omega)

theorem digitOf_digitChar (small : d < 10) : digitOf (digitChar d) = d := by
  rw [digitOf, toNat_digitChar small]
  omega

theorem isAsciiDigit_digitChar (small : d < 10) : isAsciiDigit (digitChar d) = true := by
  simp only [isAsciiDigit, toNat_digitChar small, Bool.and_eq_true, decide_eq_true_eq]
  omega

/-- A digit is the character of its value. -/
theorem exists_digitChar {c : CodePoint} (digit : isAsciiDigit c = true) :
    ∃ d < 10, c = digitChar d := by
  rw [isAsciiDigit, Bool.and_eq_true, decide_eq_true_eq, decide_eq_true_eq] at digit
  have restored : 48 + (c.toNat - 48) = c.toNat := by omega
  exact ⟨c.toNat - 48, by omega, by rw [digitChar, restored, CodePoint.ofNat_toNat]⟩

theorem not_blank_of_digit {c : CodePoint} (digit : isAsciiDigit c = true) : isBlank c = false := by
  obtain ⟨d, small, rfl⟩ := exists_digitChar digit
  have each : ∀ d < 10, isBlank (digitChar d) = false := by decide
  exact each d small

/-- Reading the digits of `n` in front of a text continues from `n`. Halving bounds the fuel that
dividing by ten needs. -/
theorem foldl_digitsOnto (fuel : Nat) (enough : n < 2 ^ fuel) :
    (digitsOnto fuel n rest).foldl (fun m c => 10 * m + digitOf c) 0 =
      rest.foldl (fun m c => 10 * m + digitOf c) n := by
  induction fuel generalizing n rest with
  | zero =>
    obtain rfl : n = 0 := by omega
    rfl
  | succ fuel ih =>
    rw [digitsOnto]
    split
    · rename_i small
      rw [List.foldl_cons, digitOf_digitChar small, Nat.mul_zero, Nat.zero_add]
    · have fewer : n / 10 < 2 ^ fuel := by
        rw [Nat.pow_succ] at enough
        omega
      have last : n % 10 < 10 := Nat.mod_lt _ (by decide)
      rw [ih fewer, List.foldl_cons, digitOf_digitChar last, Nat.div_add_mod]

theorem ofDigits_natText (n : Nat) : ofDigits (natText n) = n :=
  foldl_digitsOnto (n.log2 + 1) Nat.lt_log2_self

theorem mem_digitsOnto (fuel : Nat) {c : CodePoint} (member : c ∈ digitsOnto fuel n rest) :
    isAsciiDigit c = true ∨ c ∈ rest := by
  induction fuel generalizing n rest with
  | zero => exact .inr member
  | succ fuel ih =>
    rw [digitsOnto] at member
    split at member
    · rename_i small
      rcases List.mem_cons.mp member with rfl | later
      · exact .inl (isAsciiDigit_digitChar small)
      · exact .inr later
    · rcases ih member with digit | inRest
      · exact .inl digit
      · rcases List.mem_cons.mp inRest with rfl | later
        · exact .inl (isAsciiDigit_digitChar (Nat.mod_lt _ (by decide)))
        · exact .inr later

theorem natText_digits (n : Nat) : ∀ c ∈ natText n, isAsciiDigit c = true := by
  intro c member
  rcases mem_digitsOnto _ member with digit | none
  · exact digit
  · cases none

theorem digitsOnto_ne_nil (fuel : Nat) : digitsOnto (fuel + 1) n rest ≠ [] := by
  induction fuel generalizing n rest with
  | zero =>
    rw [digitsOnto]
    split <;> exact List.cons_ne_nil _ _
  | succ fuel ih =>
    rw [digitsOnto]
    split
    · exact List.cons_ne_nil _ _
    · exact ih

theorem natText_ne_nil (n : Nat) : natText n ≠ [] :=
  digitsOnto_ne_nil _

theorem intText_ne_nil (i : Int) : intText i ≠ [] := by
  unfold intText
  split
  · exact List.cons_ne_nil _ _
  · exact natText_ne_nil _

theorem length_digitsOnto_le (fuel : Nat) (short : n < 10 ^ (k + 1)) :
    (digitsOnto fuel n rest).length ≤ k + 1 + rest.length := by
  induction fuel generalizing n rest k with
  | zero => exact Nat.le_add_left _ _
  | succ fuel ih =>
    rw [digitsOnto]
    split
    · rw [List.length_cons]
      omega
    · rename_i large
      cases k with
      | zero => omega
      | succ k =>
        have fewer : n / 10 < 10 ^ (k + 1) := by
          rw [Nat.pow_succ] at short
          omega
        calc (digitsOnto fuel (n / 10) (digitChar (n % 10) :: rest)).length
            ≤ k + 1 + (digitChar (n % 10) :: rest).length := ih fewer
          _ = k + 1 + 1 + rest.length := by rw [List.length_cons]; omega

theorem length_natText_le (positive : 0 < k) (short : n < 10 ^ k) : (natText n).length ≤ k := by
  obtain ⟨k, rfl⟩ := Nat.exists_eq_succ_of_ne_zero (Nat.ne_of_gt positive)
  exact length_digitsOnto_le _ short

theorem digitChar_ne_zero (positive : 0 < d) (small : d < 10) : digitChar d ≠ '0' := by
  intro same
  have number := congrArg CodePoint.toNat same
  rw [toNat_digitChar small] at number
  have zero : CodePoint.toNat '0' = 48 := rfl
  omega

/-- The digits of a positive number do not begin with a zero. -/
theorem head_digitsOnto (fuel : Nat) (positive : 0 < n) (enough : n < 2 ^ fuel) :
    (digitsOnto fuel n rest).head? ≠ some (.char '0') := by
  induction fuel generalizing n rest with
  | zero => omega
  | succ fuel ih =>
    rw [digitsOnto]
    split
    · rename_i small
      intro first
      exact digitChar_ne_zero positive small (Option.some.inj first)
    · have fewer : n / 10 < 2 ^ fuel := by
        rw [Nat.pow_succ] at enough
        omega
      exact ih (by omega) fewer

theorem natText_leading (n : Nat) :
    natText n = [.char '0'] ∨ (natText n).head? ≠ some (.char '0') := by
  rcases Nat.eq_zero_or_pos n with rfl | positive
  · exact .inl rfl
  · exact .inr (head_digitsOnto _ positive Nat.lt_log2_self)

/-! ### Digits of a fixed width -/

theorem padded_digits (k n : Nat) : ∀ c ∈ padded k n, isAsciiDigit c = true := by
  intro c member
  rcases List.mem_append.mp member with zero | digit
  · obtain ⟨_, rfl⟩ := List.mem_replicate.mp zero
    rfl
  · exact natText_digits n c digit

theorem length_padded (positive : 0 < k) (short : n < 10 ^ k) : (padded k n).length = k := by
  have fits := length_natText_le positive short
  rw [padded, List.length_append, List.length_replicate]
  omega

theorem ofDigits_padded (k n : Nat) : ofDigits (padded k n) = n := by
  have zeros (count : Nat) : ofDigits (List.replicate count (.char '0')) = 0 := by
    induction count with
    | zero => rfl
    | succ count ih =>
      rw [ofDigits, List.replicate_succ, List.foldl_cons]
      exact ih
  rw [padded, ofDigits, List.foldl_append]
  change (natText n).foldl _ (ofDigits _) = n
  rw [zeros]
  exact ofDigits_natText n

/-! ### Numerals -/

namespace Numeral

/-- The text is one digit or more. -/
structure IsDigits (t : Text) : Prop where
  filled : t ≠ []
  all : ∀ c ∈ t, isAsciiDigit c = true

/-- Digits stand before the point, and behind it if there is one. -/
structure WellFormed (n : Numeral) : Prop where
  whole : IsDigits n.whole
  fraction : ∀ digits, n.fraction = some digits → IsDigits digits

/-- The point and the digits behind it. -/
def decimals (n : Numeral) : Text :=
  match n.fraction with
  | none => []
  | some digits => .char '.' :: digits

/-- Reads a numeral behind its sign. -/
def readUnsigned? (negative : Bool) (t : Text) : Option Numeral :=
  let whole := t.takeWhile isAsciiDigit
  match whole, t.dropWhile isAsciiDigit with
  | [], _ => none
  | _, [] => some ⟨negative, whole, none⟩
  | _, .char '.' :: fraction =>
    if !fraction.isEmpty && fraction.all isAsciiDigit then some ⟨negative, whole, some fraction⟩
    else none
  | _, _ => none

theorem read?_plain {t : Text} (noSign : t.head? ≠ some (.char '-')) :
    read? t = readUnsigned? false t := by
  unfold read?
  split
  rename_i signed
  split at signed
  · exact (noSign rfl).elim
  · cases signed
    rfl

theorem readUnsigned?_text {n : Numeral} (formed : n.WellFormed) :
    readUnsigned? n.negative (n.whole ++ n.decimals) = some n := by
  obtain ⟨negative, whole, fraction⟩ := n
  obtain ⟨⟨filled, all⟩, places⟩ := formed
  obtain ⟨first, others, rfl⟩ := List.exists_cons_of_ne_nil filled
  cases fraction with
  | none =>
    have taken : (first :: others).takeWhile isAsciiDigit = first :: others :=
      List.takeWhile_eq_self_iff.mpr all
    have left : (first :: others).dropWhile isAsciiDigit = [] := List.dropWhile_eq_nil_iff.mpr all
    simp only [readUnsigned?, decimals, List.append_nil, taken, left]
  | some digits =>
    obtain ⟨filled', all'⟩ := places digits rfl
    have taken : (first :: others ++ .char '.' :: digits).takeWhile isAsciiDigit = first :: others := by
      rw [List.takeWhile_append_of_pos all]
      exact List.append_nil _
    have left : (first :: others ++ .char '.' :: digits).dropWhile isAsciiDigit =
        .char '.' :: digits :=
      List.dropWhile_append_of_pos all
    have accepted : (!digits.isEmpty && digits.all isAsciiDigit) = true := by
      simpa [filled'] using all'
    simp only [readUnsigned?, decimals, taken, left, if_pos accepted]

theorem text_eq (n : Numeral) :
    n.text = if n.negative then .char '-' :: (n.whole ++ n.decimals) else n.whole ++ n.decimals := by
  rw [text]
  cases n.negative <;> rfl

theorem read?_text {n : Numeral} (formed : n.WellFormed) : read? n.text = some n := by
  have unsigned := readUnsigned?_text formed
  rw [text_eq]
  cases sign : n.negative with
  | true =>
    rw [sign] at unsigned
    exact unsigned
  | false =>
    rw [sign] at unsigned
    have noSign : (n.whole ++ n.decimals).head? ≠ some (.char '-') := by
      obtain ⟨filled, all⟩ := formed.whole
      obtain ⟨first, others, split⟩ := List.exists_cons_of_ne_nil filled
      rw [split] at all ⊢
      rintro ⟨rfl⟩
      exact absurd (all _ List.mem_cons_self) (by decide)
    exact (read?_plain noSign).trans unsigned

end Numeral

/-! ### Integers -/

theorem isWritable_iff : isWritable i = true ↔ i.natAbs < 10 ^ maxIntegerDigits := by
  rw [isWritable, decide_eq_true_iff, Nat.pow_eq]

/-- An integer is written as a numeral. -/
theorem intText_eq_text (i : Int) :
    intText i = Numeral.text ⟨decide (i < 0), natText i.natAbs, none⟩ := by
  by_cases negative : i < 0 <;> simp [intText, Numeral.text, negative]

theorem wellFormed_intText (i : Int) :
    Numeral.WellFormed ⟨decide (i < 0), natText i.natAbs, none⟩ :=
  ⟨⟨natText_ne_nil _, natText_digits _⟩, nofun⟩

theorem integerOf_natText (short : i.natAbs < 10 ^ maxIntegerDigits) :
    integerOf (decide (i < 0)) (natText i.natAbs) = .ok i := by
  have fits : ¬(natText i.natAbs).length > maxIntegerDigits :=
    Nat.not_lt.mpr (length_natText_le (by decide) short)
  rw [integerOf, if_neg fits, ofDigits_natText]
  split
  · rename_i negative
    rw [decide_eq_true_eq] at negative
    rw [Int.ofNat_natAbs_of_nonpos (by omega), Int.neg_neg]
  · rename_i positive
    rw [decide_eq_true_eq] at positive
    rw [Int.natAbs_of_nonneg (by omega)]

end GuardedConsole.Number
