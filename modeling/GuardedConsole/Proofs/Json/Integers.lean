import GuardedConsole.Proofs.Json.Atoms
import GuardedConsole.Proofs.Number.Digits

/-!
# Integers in JSON

An integer is written as its digits, a zero only alone in front, with a minus or without. Where one
stands, and no fraction and no exponent goes on with it, reading gives its value if it has no more than
`maxIntegerDigits` digits (`readAtom_integer`), and nothing else is refused for having too many
(`readAtom_eq_tooManyDigits_iff`).
-/

namespace GuardedConsole.Json

open Text Number

variable {t rest digits : Text} {j : Json} {negative : Bool} {n : Nat}

/-- The digits of a whole number. -/
structure IsWholeNumber (digits : Text) : Prop where
  filled : digits ≠ []
  all : ∀ c ∈ digits, isAsciiDigit c = true
  leading : digits = [.char '0'] ∨ digits.head? ≠ some (.char '0')

/-- The text does not go on with a whole number that it follows: not with a digit, a point and a
digit, or the letter of an exponent and its digits. -/
structure EndsInteger (rest : Text) : Prop where
  digit : rest.head?.any isAsciiDigit = false
  fraction : ∀ d t, rest = .char '.' :: d :: t → isAsciiDigit d = false
  exponent : ∀ e sign d t, rest = e :: (sign ++ d :: t) → (e = 'e' ∨ e = 'E') → isSign sign →
    isAsciiDigit d = false

def signed (negative : Bool) (digits : Text) : Text :=
  if negative then .char '-' :: digits else digits

/-- What comes of reading an integer in front of a text. -/
def readInteger (negative : Bool) (digits rest : Text) : Reading Json :=
  match integerOf negative digits with
  | .ok i => .ok (.int i, rest)
  | .error count => .error (.tooManyDigits count)

/-! ### Digits in front of a text -/

theorem takeWhole_append (whole : IsWholeNumber digits) (ends : rest.head?.any isAsciiDigit = false) :
    takeWhole (digits ++ rest) = some (digits, rest) := by
  rcases whole.leading with rfl | noZero
  · rfl
  · obtain ⟨d, ds, rfl⟩ := List.exists_cons_of_ne_nil whole.filled
    have taken := takeDigits_append whole.all ends
    rw [List.cons_append] at taken ⊢
    unfold takeWhole
    split
    · rename_i zero
      cases zero
      exact (noZero rfl).elim
    · rw [taken]

theorem isWholeNumber_of_takeWhole (taken : takeWhole t = some (digits, rest)) :
    IsWholeNumber digits ∧ t = digits ++ rest ∧ rest.head?.any isAsciiDigit = false ∨
      digits = [.char '0'] ∧ t = digits ++ rest := by
  unfold takeWhole at taken
  split at taken
  · cases taken
    exact .inr ⟨rfl, rfl⟩
  · rename_i noZero
    split at taken
    · cases taken
    · rename_i filled found
      cases taken
      obtain ⟨rfl, all, ends⟩ := digits_of_takeDigits found
      refine .inl ⟨⟨filled, all, .inr fun first => ?_⟩, rfl, ends⟩
      obtain ⟨d, ds, rfl⟩ := List.exists_cons_of_ne_nil filled
      cases first
      exact noZero _ rfl

/-- A point that is followed by a digit begins a fraction. -/
theorem takeFraction_eq_none_iff :
    takeFraction t = (none, t) ↔ ∀ d u, t = .char '.' :: d :: u → isAsciiDigit d = false := by
  constructor
  · rintro absent d u rfl
    by_contra digit
    rw [Bool.not_eq_false] at digit
    simp [takeFraction, takeDigits, digit] at absent
  · intro noDigit
    rcases takeFraction_cases t with absent | ⟨digits, rest, rfl, _, filled, all⟩
    · exact absent
    · obtain ⟨d, ds, rfl⟩ := List.exists_cons_of_ne_nil filled
      have digit := all d List.mem_cons_self
      rw [noDigit d (ds ++ rest) rfl] at digit
      cases digit

/-- The letter of an exponent that is followed by digits, with a sign or without, begins one. -/
theorem takeExponent_eq_none_iff :
    takeExponent t = (none, t) ↔ ∀ e sign d u, t = e :: (sign ++ d :: u) → (e = 'e' ∨ e = 'E') →
      isSign sign → isAsciiDigit d = false := by
  constructor
  · rintro absent e sign d u rfl letter isSigned
    by_contra digit
    rw [Bool.not_eq_false] at digit
    obtain ⟨split, all, ends⟩ := digits_of_takeDigits (t := d :: u) rfl
    have filled : (d :: u).takeWhile isAsciiDigit ≠ [] := by simp [digit]
    rw [split, takeExponent_append letter isSigned filled all ends] at absent
    cases absent
  · intro noDigit
    rcases takeExponent_cases t with absent | ⟨e, sign, digits, rest, rfl, _, letter, isSigned, filled, all, _⟩
    · exact absent
    · obtain ⟨d, ds, rfl⟩ := List.exists_cons_of_ne_nil filled
      have digit := all d List.mem_cons_self
      rw [noDigit e sign d (ds ++ rest) rfl letter isSigned] at digit
      cases digit

theorem endsInteger_iff :
    EndsInteger rest ↔ rest.head?.any isAsciiDigit = false ∧ takeFraction rest = (none, rest) ∧
      takeExponent rest = (none, rest) := by
  rw [takeFraction_eq_none_iff, takeExponent_eq_none_iff]
  exact ⟨fun ends => ⟨ends.digit, ends.fraction, ends.exponent⟩, fun ⟨d, f, e⟩ => ⟨d, f, e⟩⟩

/-! ### Reading an integer -/

theorem readUnsigned_integer (whole : IsWholeNumber digits) (ends : EndsInteger rest) :
    readUnsigned negative (digits ++ rest) =
      readInteger negative digits rest := by
  obtain ⟨_, noFraction, noExponent⟩ := endsInteger_iff.mp ends
  rw [readUnsigned_of_parts (takeWhole_append whole ends.digit) noFraction noExponent, numberOfParts,
    readInteger]
  cases integerOf negative digits <;> rfl

/-- No word begins with a sign and digits. -/
theorem no_word_signed (filled : digits ≠ []) (all : ∀ c ∈ digits, isAsciiDigit c = true)
    (rest : Text) :
    words.find? (fun entry => entry.1.isPrefixOf (signed negative digits ++ rest)) = none := by
  have letter : ∀ entry ∈ words, ∃ c ∈ entry.1, isAsciiDigit c = false ∧ c ≠ '-' := by decide
  have noDigit : ∀ entry ∈ words, ∀ c ∈ entry.1, isAsciiDigit c = false := by decide
  have plain : ∀ c ∈ signed negative digits, isAsciiDigit c = true ∨ c = '-' := by
    intro c member
    cases negative with
    | true => exact (List.mem_cons.mp member).symm.imp (all c) id
    | false => exact .inl (all c member)
  obtain ⟨d, inDigits⟩ := List.exists_mem_of_ne_nil _ filled
  have present : d ∈ signed negative digits := by
    cases negative with
    | true => exact List.mem_cons_of_mem _ inDigits
    | false => exact inDigits
  rw [List.find?_eq_none]
  intro entry listed begins
  rcases List.prefix_or_prefix_of_prefix (List.isPrefixOf_iff_prefix.mp begins)
    (List.prefix_append (signed negative digits) rest) with inside | around
  · obtain ⟨c, member, other, noMinus⟩ := letter entry listed
    rcases plain c (inside.subset member) with digit | minus
    · rw [other] at digit
      cases digit
    · exact noMinus minus
  · have digit := all d inDigits
    rw [noDigit entry listed d (around.subset present)] at digit
    cases digit

/-- Where a sign and digits stand, the digits begin a number of that sign. -/
theorem readAtom_signed (filled : digits ≠ []) (all : ∀ c ∈ digits, isAsciiDigit c = true)
    (rest : Text) :
    readAtom (signed negative digits ++ rest) = readUnsigned negative (digits ++ rest) := by
  rw [readAtom, no_word_signed filled all]
  cases negative with
  | true => exact readNumber_minus _
  | false =>
    refine readNumber_plain ?_
    obtain ⟨d, ds, rfl⟩ := List.exists_cons_of_ne_nil filled
    rintro ⟨rfl⟩
    exact absurd (all _ List.mem_cons_self) (by decide)

theorem readAtom_integer (whole : IsWholeNumber digits) (ends : EndsInteger rest) :
    readAtom (signed negative digits ++ rest) =
      readInteger negative digits rest := by
  rw [readAtom_signed whole.filled whole.all, readUnsigned_integer whole ends]

/-! ### Too many digits -/

/-- At the beginning of the text stands an integer with more digits than are read. -/
inductive BeginsOverlong : Text → Nat → Prop where
  | intro {negative : Bool} {digits rest : Text} : IsWholeNumber digits →
    maxIntegerDigits < digits.length → EndsInteger rest →
    BeginsOverlong (signed negative digits ++ rest) digits.length

theorem integerOf_eq_error_iff :
    integerOf negative digits = .error n ↔ maxIntegerDigits < digits.length ∧ n = digits.length := by
  unfold integerOf
  split
  · rename_i long
    simp [eq_comm, Nat.lt_of_not_le (Nat.not_le.mpr long)]
  · rename_i short
    split <;> simp [short]

theorem takeFraction_of_fst_eq_none (absent : (takeFraction t).1 = none) :
    takeFraction t = (none, t) := by
  rcases takeFraction_cases t with same | ⟨_, _, _, taken, _⟩
  · exact same
  · rw [taken] at absent
    cases absent

theorem takeExponent_of_fst_eq_none (absent : (takeExponent t).1 = none) :
    takeExponent t = (none, t) := by
  rcases takeExponent_cases t with
    same | ⟨e, sign, ds, after, rfl, _, letter, isSigned, filled, all, ends⟩
  · exact same
  · rw [takeExponent_append letter isSigned filled all ends] at absent
    cases absent

/-- Only an integer that has neither a fraction nor an exponent is refused for its digits. -/
theorem numberOfParts_eq_tooManyDigits {fraction : Option Text} {exponent : Option Int}
    (long : numberOfParts negative digits fraction exponent = .error (.tooManyDigits n)) :
    fraction = none ∧ exponent = none ∧ integerOf negative digits = .error n := by
  unfold numberOfParts at long
  split at long
  · cases value : integerOf negative digits with
    | ok i =>
      rw [value] at long
      cases long
    | error count =>
      rw [value] at long
      cases long
      exact ⟨rfl, rfl, rfl⟩
  · cases long

theorem overlong_of_readUnsigned (read : readUnsigned negative t = .error (.tooManyDigits n)) :
    ∃ digits rest, t = digits ++ rest ∧ IsWholeNumber digits ∧ maxIntegerDigits < digits.length ∧
      EndsInteger rest ∧ n = digits.length := by
  cases start : takeWhole t with
  | none =>
    rw [readUnsigned, start] at read
    cases read
  | some parts =>
    obtain ⟨digits, rest⟩ := parts
    rw [readUnsigned_of_whole start] at read
    have long : numberOfParts negative digits (takeFraction rest).1 (takeExponent (takeFraction rest).2).1 =
        .error (.tooManyDigits n) := by
      cases number :
          numberOfParts negative digits (takeFraction rest).1 (takeExponent (takeFraction rest).2).1 with
      | ok j =>
        rw [number] at read
        cases read
      | error e =>
        rw [number] at read
        cases read
        rfl
    obtain ⟨noFraction, noExponent, long⟩ := numberOfParts_eq_tooManyDigits long
    have plain := takeFraction_of_fst_eq_none noFraction
    rw [plain] at noExponent
    obtain ⟨many, rfl⟩ := integerOf_eq_error_iff.mp long
    rcases isWholeNumber_of_takeWhole start with ⟨whole, rfl, ends⟩ | ⟨rfl, _⟩
    · have ended : EndsInteger rest :=
        endsInteger_iff.mpr ⟨ends, plain, takeExponent_of_fst_eq_none noExponent⟩
      exact ⟨digits, rest, rfl, whole, many, ended, rfl⟩
    · exact absurd many (by decide)

theorem overlong_of_readNumber (read : readNumber t = .error (.tooManyDigits n)) :
    BeginsOverlong t n := by
  by_cases minus : t.head? = some (.char '-')
  · cases t with
    | nil => cases minus
    | cons c t =>
      cases minus
      rw [readNumber_minus] at read
      obtain ⟨digits, rest, rfl, whole, many, ends, rfl⟩ := overlong_of_readUnsigned read
      exact @BeginsOverlong.intro true _ _ whole many ends
  · rw [readNumber_plain minus] at read
    obtain ⟨digits, rest, rfl, whole, many, ends, rfl⟩ := overlong_of_readUnsigned read
    exact @BeginsOverlong.intro false _ _ whole many ends

/-- A number or a word is refused for its digits exactly if it is an integer with too many. -/
theorem readAtom_eq_tooManyDigits_iff :
    readAtom t = .error (.tooManyDigits n) ↔ BeginsOverlong t n := by
  constructor
  · intro read
    unfold readAtom at read
    split at read
    · cases read
    · exact overlong_of_readNumber read
  · rintro ⟨whole, many, ends⟩
    rw [readAtom_integer whole ends, readInteger, integerOf_eq_error_iff.mpr ⟨many, rfl⟩]

/-! ### Integers that are written -/

theorem isWholeNumber_natText (n : Nat) : IsWholeNumber (natText n) where
  filled := natText_ne_nil n
  all := natText_digits n
  leading := natText_leading n

theorem intText_eq (i : Int) : intText i = signed (decide (i < 0)) (natText i.natAbs) := by
  unfold intText signed
  simp only [decide_eq_true_eq]

theorem endsInteger_nil : EndsInteger [] where
  digit := rfl
  fraction := nofun
  exponent := nofun

/-- An integer that is short enough is read back from its digits. -/
theorem readAtom_intText {i : Int} (short : i.natAbs < 10 ^ maxIntegerDigits) :
    readAtom (intText i) = .ok (.int i, []) := by
  have read : readAtom (signed (decide (i < 0)) (natText i.natAbs) ++ []) = _ :=
    readAtom_integer (isWholeNumber_natText i.natAbs) endsInteger_nil
  rwa [readInteger, integerOf_natText short, List.append_nil, ← intText_eq] at read

end GuardedConsole.Json
