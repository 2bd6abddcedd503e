import GuardedConsole.Json.Reader

/-!
# Numbers and words in JSON

What a number or a word is read as does not depend on what follows, if that does not continue a
number: `readAtom_local`. It has no spaces, quotes, brackets or commas.
-/

namespace GuardedConsole.Json

open Text

variable {t rest digits : Text} {j : Json}

def continuesNumber (c : CodePoint) : Bool :=
  isAsciiDigit c || c == '.' || c == 'e' || c == 'E'

/-- The text does not continue a number that it follows. -/
def Stops (t : Text) : Prop :=
  t.head?.any continuesNumber = false

/-- Is the character one of a number or a word? -/
def isAtomic (c : CodePoint) : Bool :=
  isAsciiDigit c || isAsciiLetter c || c == '-' || c == '+' || c == '.'

theorem Stops.no_digit (stops : Stops rest) : rest.head?.any isAsciiDigit = false := by
  cases rest with
  | nil => rfl
  | cons c rest =>
    simp only [Stops, List.head?_cons, Option.any_some, continuesNumber, Bool.or_eq_false_iff] at stops
    exact stops.1.1.1

theorem Stops.no_point (stops : Stops rest) :
    rest.head?.any (fun c => isAsciiDigit c || c == '.') = false := by
  cases rest with
  | nil => rfl
  | cons c rest =>
    simp only [Stops, List.head?_cons, Option.any_some, continuesNumber, Bool.or_eq_false_iff] at stops
    simp [stops.1.1]

theorem isAtomic_of_digit {c : CodePoint} (digit : isAsciiDigit c = true) : isAtomic c = true := by
  rw [isAtomic, digit]
  rfl

/-! ### Digits -/

theorem takeDigits_append (all : ∀ c ∈ digits, isAsciiDigit c = true)
    (ends : rest.head?.any isAsciiDigit = false) : takeDigits (digits ++ rest) = (digits, rest) := by
  have stopped : rest.takeWhile isAsciiDigit = [] ∧ rest.dropWhile isAsciiDigit = rest := by
    cases rest with
    | nil => exact ⟨rfl, rfl⟩
    | cons c rest =>
      rw [List.head?_cons, Option.any_some] at ends
      simp [ends]
  rw [takeDigits, List.takeWhile_append_of_pos all, List.dropWhile_append_of_pos all, stopped.1,
    stopped.2, List.append_nil]

theorem digits_of_takeDigits (taken : takeDigits t = (digits, rest)) :
    t = digits ++ rest ∧ (∀ c ∈ digits, isAsciiDigit c = true) ∧
      rest.head?.any isAsciiDigit = false := by
  cases taken
  refine ⟨List.takeWhile_append_dropWhile.symm,
    fun c member => List.all_eq_true.mp List.all_takeWhile c member, ?_⟩
  have stopped := List.head?_dropWhile_not isAsciiDigit t
  cases first : (t.dropWhile isAsciiDigit).head? with
  | none => rfl
  | some c =>
    rw [first] at stopped
    exact stopped

theorem takeWhole_local (taken : takeWhole t = some (digits, rest)) :
    digits ≠ [] ∧ t = digits ++ rest ∧ (∀ c ∈ digits, isAsciiDigit c = true) ∧
      ∀ rest', rest'.head?.any isAsciiDigit = false →
        takeWhole (digits ++ rest') = some (digits, rest') := by
  unfold takeWhole at taken
  split at taken
  · cases taken
    exact ⟨List.cons_ne_nil _ _, rfl, by decide, fun rest' _ => rfl⟩
  · rename_i noZero
    split at taken
    · cases taken
    · rename_i filled found
      cases taken
      obtain ⟨rfl, all, _⟩ := digits_of_takeDigits found
      refine ⟨filled, rfl, all, fun rest' ends => ?_⟩
      have again := takeDigits_append all ends
      unfold takeWhole
      split
      · rename_i zero
        -- the digits would begin with a zero
        obtain ⟨d, ds, rfl⟩ := List.exists_cons_of_ne_nil filled
        cases zero
        exact (noZero _ rfl).elim
      · rw [again]
        split
        · rename_i empty
          cases empty
          exact (filled rfl).elim
        · rename_i same
          cases same
          rfl

/-! ### Fractions and exponents -/

/-- A fraction that is taken, and what is taken off with it. -/
theorem takeFraction_append (filled : digits ≠ []) (all : ∀ c ∈ digits, isAsciiDigit c = true)
    (ends : rest.head?.any isAsciiDigit = false) :
    takeFraction (.char '.' :: (digits ++ rest)) = (some digits, rest) := by
  obtain ⟨d, ds, rfl⟩ := List.exists_cons_of_ne_nil filled
  simp only [takeFraction, takeDigits_append all ends]

theorem takeFraction_cases (t : Text) :
    takeFraction t = (none, t) ∨ ∃ digits rest, t = .char '.' :: (digits ++ rest) ∧
      takeFraction t = (some digits, rest) ∧ digits ≠ [] ∧ ∀ c ∈ digits, isAsciiDigit c = true := by
  unfold takeFraction
  split
  · split
    · exact .inl rfl
    · rename_i digits rest filled found
      obtain ⟨rfl, all, _⟩ := digits_of_takeDigits found
      exact .inr ⟨digits, rest, rfl, rfl, filled, all⟩
  · exact .inl rfl

/-- Is the text a sign of an exponent, or nothing? -/
def isSign (sign : Text) : Prop :=
  sign = [] ∨ sign = [.char '-'] ∨ sign = [.char '+']

theorem takeExponent_append {e : CodePoint} {sign : Text} (letter : e = 'e' ∨ e = 'E')
    (signed : isSign sign) (filled : digits ≠ []) (all : ∀ c ∈ digits, isAsciiDigit c = true)
    (ends : rest.head?.any isAsciiDigit = false) :
    takeExponent (e :: (sign ++ (digits ++ rest))) =
      (some (if sign = [.char '-'] then -(Number.ofDigits digits : Int) else Number.ofDigits digits),
        rest) := by
  have taken := takeDigits_append all ends
  obtain ⟨d, ds, rfl⟩ := List.exists_cons_of_ne_nil filled
  rw [List.cons_append] at taken
  rcases signed with rfl | rfl | rfl
  · have noMinus : d ≠ '-' := by
      rintro rfl
      exact absurd (all _ List.mem_cons_self) (by decide)
    have noPlus : d ≠ '+' := by
      rintro rfl
      exact absurd (all _ List.mem_cons_self) (by decide)
    simp [takeExponent, letter, noMinus, noPlus, taken]
  · simp [takeExponent, letter, taken]
  · simp [takeExponent, letter, taken]

theorem takeExponent_cases (t : Text) :
    takeExponent t = (none, t) ∨ ∃ e sign digits rest, t = e :: (sign ++ (digits ++ rest)) ∧
      (takeExponent t).2 = rest ∧ (e = 'e' ∨ e = 'E') ∧ isSign sign ∧ digits ≠ [] ∧
      (∀ c ∈ digits, isAsciiDigit c = true) ∧ rest.head?.any isAsciiDigit = false := by
  unfold takeExponent
  split
  · rename_i e after
    split
    · rename_i letter
      dsimp only
      split
      · exact .inl rfl
      · rename_i digits rest filled found
        obtain ⟨unsigned, all, ends⟩ := digits_of_takeDigits found
        refine .inr ?_
        -- a sign may stand before the digits
        split at unsigned
        · obtain rfl : _ = digits ++ rest := unsigned
          exact ⟨e, [.char '-'], digits, rest, rfl, rfl, letter, .inr (.inl rfl), filled, all, ends⟩
        · obtain rfl : _ = digits ++ rest := unsigned
          exact ⟨e, [.char '+'], digits, rest, rfl, rfl, letter, .inr (.inr rfl), filled, all, ends⟩
        · obtain rfl : _ = digits ++ rest := unsigned
          exact ⟨e, [], digits, rest, rfl, rfl, letter, .inl rfl, filled, all, ends⟩
    · exact .inl rfl
  · exact .inl rfl

theorem takeFraction_local (t : Text) :
    ∃ p, t = p ++ (takeFraction t).2 ∧ (∀ c ∈ p, isAtomic c = true) ∧
      (p = [] ∨ p.head? = some (.char '.')) ∧
      ∀ rest', rest'.head?.any (fun c => isAsciiDigit c || c == '.') = false →
        takeFraction (p ++ rest') = ((takeFraction t).1, rest') := by
  rcases takeFraction_cases t with absent | ⟨digits, rest, rfl, taken, filled, all⟩
  · rw [absent]
    refine ⟨[], rfl, List.forall_mem_nil _, .inl rfl, fun rest' ends => ?_⟩
    rcases takeFraction_cases rest' with absent' | ⟨_, _, rfl, _⟩
    · exact absent'
    · cases ends
  · rw [taken]
    refine ⟨.char '.' :: digits, rfl, ?_, .inr rfl, fun rest' ends => takeFraction_append filled all ?_⟩
    · exact List.forall_mem_cons.mpr ⟨rfl, fun c member => isAtomic_of_digit (all c member)⟩
    · cases rest' with
      | nil => rfl
      | cons c rest' => exact (Bool.or_eq_false_iff.mp ends).1

theorem takeExponent_local (t : Text) :
    ∃ p, t = p ++ (takeExponent t).2 ∧ (∀ c ∈ p, isAtomic c = true) ∧
      (p = [] ∨ p.head? = some (.char 'e') ∨ p.head? = some (.char 'E')) ∧
      ∀ rest', Stops rest' → takeExponent (p ++ rest') = ((takeExponent t).1, rest') := by
  rcases takeExponent_cases t with
    absent | ⟨e, sign, digits, rest, rfl, same, letter, signed, filled, all, ends⟩
  · rw [absent]
    refine ⟨[], rfl, List.forall_mem_nil _, .inl rfl, fun rest' stops => ?_⟩
    rcases takeExponent_cases rest' with absent' | ⟨_, _, _, _, rfl, _, rfl | rfl, _⟩
    · exact absent'
    · cases stops
    · cases stops
  · have taken := takeExponent_append letter signed filled all ends
    rw [taken]
    refine ⟨e :: (sign ++ digits), by simp, ?_, .inr ?_, fun rest' stops => ?_⟩
    · have signs : ∀ c ∈ sign, isAtomic c = true := by
        rcases signed with rfl | rfl | rfl <;> decide
      refine List.forall_mem_cons.mpr ⟨by rcases letter with rfl | rfl <;> rfl, fun c member => ?_⟩
      rcases List.mem_append.mp member with inSign | inDigits
      · exact signs c inSign
      · exact isAtomic_of_digit (all c inDigits)
    · rcases letter with rfl | rfl
      · exact .inl rfl
      · exact .inr rfl
    · rw [List.cons_append, List.append_assoc]
      exact takeExponent_append letter signed filled all stops.no_digit

/-! ### Numbers and words -/

/-- Reads a number behind its sign. -/
def readUnsigned (negative : Bool) (t : Text) : Reading Json :=
  match takeWhole t with
  | none => .error .malformed
  | some (whole, t) =>
    let (fraction, t) := takeFraction t
    let (exponent, t) := takeExponent t
    match fraction, exponent with
    | none, none =>
      match Number.integerOf negative whole with
      | .ok i => .ok (.int i, t)
      | .error count => .error (.tooManyDigits count)
    | fraction, exponent =>
      let digits := fraction.getD []
      let e := exponent.getD 0 - digits.length
      .ok (.float (Number.Binary64.ofDecimal negative (Number.ofDigits (whole ++ digits)) e), t)

/-- The number that the parts of its text make up. -/
def numberOfParts (negative : Bool) (whole : Text) (fraction : Option Text) (exponent : Option Int) :
    Except ReadError Json :=
  match fraction, exponent with
  | none, none =>
    match Number.integerOf negative whole with
    | .ok i => .ok (.int i)
    | .error count => .error (.tooManyDigits count)
  | fraction, exponent =>
    let digits := fraction.getD []
    let e := exponent.getD 0 - digits.length
    .ok (.float (Number.Binary64.ofDecimal negative (Number.ofDigits (whole ++ digits)) e))

theorem readUnsigned_of_parts {negative : Bool} {whole u v : Text} {fraction : Option Text}
    {exponent : Option Int} (start : takeWhole t = some (whole, u))
    (behind : takeFraction u = (fraction, v)) (last : takeExponent v = (exponent, rest)) :
    readUnsigned negative t =
      (numberOfParts negative whole fraction exponent).map fun j => (j, rest) := by
  rw [readUnsigned, start]
  dsimp only
  rw [behind]
  dsimp only
  rw [last]
  cases fraction with
  | some digits => rfl
  | none =>
    cases exponent with
    | some e => rfl
    | none =>
      dsimp only [numberOfParts]
      cases Number.integerOf negative whole <;> rfl

theorem readUnsigned_of_whole {negative : Bool} {whole u : Text}
    (start : takeWhole t = some (whole, u)) :
    readUnsigned negative t =
      (numberOfParts negative whole (takeFraction u).1 (takeExponent (takeFraction u).2).1).map
        fun j => (j, (takeExponent (takeFraction u).2).2) :=
  readUnsigned_of_parts start rfl rfl

theorem readUnsigned_parts {negative : Bool} (read : readUnsigned negative t = .ok (j, rest)) :
    ∃ whole u, takeWhole t = some (whole, u) ∧ (takeExponent (takeFraction u).2).2 = rest ∧
      numberOfParts negative whole (takeFraction u).1 (takeExponent (takeFraction u).2).1 = .ok j := by
  cases start : takeWhole t with
  | none =>
    rw [readUnsigned, start] at read
    cases read
  | some parts =>
    obtain ⟨whole, u⟩ := parts
    rw [readUnsigned_of_whole start] at read
    cases number : numberOfParts negative whole (takeFraction u).1 (takeExponent (takeFraction u).2).1 with
    | error e =>
      rw [number] at read
      cases read
    | ok j' =>
      rw [number] at read
      cases read
      exact ⟨whole, u, rfl, rfl, number⟩

theorem readNumber_minus (t : Text) : readNumber (.char '-' :: t) = readUnsigned true t := rfl

theorem readNumber_plain (noSign : t.head? ≠ some (.char '-')) :
    readNumber t = readUnsigned false t := by
  unfold readNumber
  split
  rename_i signed
  split at signed
  · exact (noSign rfl).elim
  · cases signed
    rfl

/-- What continues a number does not stand behind its fraction, whether an exponent follows or not. -/
theorem Stops.behind_fraction {exponent : Text} (stops : Stops rest)
    (letter : exponent = [] ∨ exponent.head? = some (.char 'e') ∨ exponent.head? = some (.char 'E')) :
    (exponent ++ rest).head?.any (fun c => isAsciiDigit c || c == '.') = false := by
  rcases letter with rfl | first | first
  · exact stops.no_point
  · rw [List.head?_append, first]
    rfl
  · rw [List.head?_append, first]
    rfl

theorem no_digit_behind {fraction u : Text}
    (point : fraction = [] ∨ fraction.head? = some (.char '.'))
    (ends : u.head?.any (fun c => isAsciiDigit c || c == '.') = false) :
    (fraction ++ u).head?.any isAsciiDigit = false := by
  rcases point with rfl | first
  · cases u with
    | nil => rfl
    | cons c u => exact (Bool.or_eq_false_iff.mp ends).1
  · rw [List.head?_append, first]
    rfl

theorem readUnsigned_local {negative : Bool} (read : readUnsigned negative t = .ok (j, rest)) :
    ∃ p, t = p ++ rest ∧ (∀ c ∈ p, isAtomic c = true) ∧ p.head?.any isAsciiDigit = true ∧
      ∀ rest', Stops rest' → readUnsigned negative (p ++ rest') = .ok (j, rest') := by
  obtain ⟨whole, after, taken, ended, number⟩ := readUnsigned_parts read
  obtain ⟨filled, rfl, all, whole_local⟩ := takeWhole_local taken
  obtain ⟨fraction, split, atomic, point, fraction_local⟩ := takeFraction_local after
  obtain ⟨exponent, split', atomic', letter, exponent_local⟩ :=
    takeExponent_local (takeFraction after).2
  have parts : after = fraction ++ (exponent ++ rest) := by
    rw [← ended, ← split', ← split]
  refine ⟨whole ++ (fraction ++ exponent), ?_, ?_, ?_, fun rest' stops => ?_⟩
  · rw [parts, List.append_assoc, List.append_assoc]
  · have digits : ∀ c ∈ whole, isAtomic c = true := fun c member => isAtomic_of_digit (all c member)
    exact List.forall_mem_append.mpr ⟨digits, List.forall_mem_append.mpr ⟨atomic, atomic'⟩⟩
  · obtain ⟨d, ds, rfl⟩ := List.exists_cons_of_ne_nil filled
    exact all d List.mem_cons_self
  · have ends := stops.behind_fraction letter
    have start := whole_local _ (no_digit_behind point ends)
    rw [List.append_assoc, List.append_assoc,
      readUnsigned_of_parts start (fraction_local _ ends) (exponent_local rest' stops), number]
    rfl

theorem readNumber_local (read : readNumber t = .ok (j, rest)) :
    ∃ p, t = p ++ rest ∧ (∀ c ∈ p, isAtomic c = true) ∧ (∃ c ∈ p, isAsciiDigit c = true) ∧
      ∀ rest', Stops rest' → readNumber (p ++ rest') = .ok (j, rest') := by
  have digit_of_head {p : Text} (first : p.head?.any isAsciiDigit = true) :
      p.head? ≠ some (.char '-') ∧ ∃ c ∈ p, isAsciiDigit c = true := by
    cases p with
    | nil => cases first
    | cons c p =>
      refine ⟨?_, c, List.mem_cons_self, first⟩
      rintro ⟨rfl⟩
      cases first
  by_cases minus : t.head? = some (.char '-')
  · cases t with
    | nil => cases minus
    | cons c t =>
      cases minus
      rw [readNumber_minus] at read
      obtain ⟨p, rfl, atomic, first, again⟩ := readUnsigned_local read
      obtain ⟨_, c, member, digit⟩ := digit_of_head first
      exact ⟨.char '-' :: p, rfl, List.forall_mem_cons.mpr ⟨rfl, atomic⟩,
        ⟨c, List.mem_cons_of_mem _ member, digit⟩, again⟩
  · rw [readNumber_plain minus] at read
    obtain ⟨p, rfl, atomic, first, again⟩ := readUnsigned_local read
    obtain ⟨noSign, digit⟩ := digit_of_head first
    refine ⟨p, rfl, atomic, digit, fun rest' stops => ?_⟩
    rw [readNumber_plain, again rest' stops]
    cases p with
    | nil => cases first
    | cons c p => exact noSign

/-- A number or a word is read the same before any text that does not continue it. -/
theorem readAtom_local (read : readAtom t = .ok (j, rest)) :
    ∃ p, p ≠ [] ∧ t = p ++ rest ∧ (∀ c ∈ p, isAtomic c = true) ∧
      ∀ rest', Stops rest' → readAtom (p ++ rest') = .ok (j, rest') := by
  unfold readAtom at read
  split at read
  · rename_i word value found
    cases read
    have begins : word <+: t := List.isPrefixOf_iff_prefix.mp (by simpa using List.find?_some found)
    have listed := List.mem_of_find?_eq_some found
    have plain : ∀ entry ∈ words, entry.1 ≠ [] ∧ ∀ c ∈ entry.1, isAtomic c = true := by decide
    obtain ⟨filled, atomic⟩ := plain _ listed
    refine ⟨word, filled, (List.prefix_iff_eq_append.mp begins).symm, atomic, fun rest' _ => ?_⟩
    simp only [words, List.mem_cons, Prod.mk.injEq, List.not_mem_nil, or_false] at listed
    rcases listed with ⟨rfl, rfl⟩ | ⟨rfl, rfl⟩ | ⟨rfl, rfl⟩ | ⟨rfl, rfl⟩ | ⟨rfl, rfl⟩ | ⟨rfl, rfl⟩ <;>
      rfl
  · rename_i none
    obtain ⟨p, rfl, atomic, ⟨c, member, digit⟩, again⟩ := readNumber_local read
    refine ⟨p, List.ne_nil_of_mem member, rfl, atomic, fun rest' stops => ?_⟩
    -- a word that begins here would begin with the whole number, which has a digit
    have noWord : words.find? (fun entry => entry.1.isPrefixOf (p ++ rest')) = Option.none := by
      rw [List.find?_eq_none] at none ⊢
      intro entry listed begins
      rcases List.prefix_or_prefix_of_prefix (List.isPrefixOf_iff_prefix.mp begins)
        (List.prefix_append p rest') with inside | around
      · exact none entry listed
          (List.isPrefixOf_iff_prefix.mpr (inside.trans (List.prefix_append p rest)))
      · have noDigit : ∀ entry ∈ words, ∀ c ∈ entry.1, isAsciiDigit c = false := by decide
        rw [noDigit entry listed c (around.subset member)] at digit
        cases digit
    rw [readAtom, noWord]
    exact again rest' stops

end GuardedConsole.Json
