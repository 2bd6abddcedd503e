import GuardedConsole.Proofs.Screening.Matching
import GuardedConsole.Proofs.Text.Trimming

/-!
# Screening and normalizing

Normalizing takes blanks and semicolons off the ends of a text, and no denied pattern begins or ends
with such a character. `findViolation_normalize` concludes that a text and its normal form are
screened alike.
-/

namespace GuardedConsole.Screening

variable {k : CharClass} {es : List Element} {t : Text} {c : CodePoint}

/-- Is the character one that normalizing may take off an end? -/
def isRemovable (c : CodePoint) : Bool :=
  Text.isBlank c || c == ';'

/-- Is the class one letter or mark that normalizing never takes off? -/
def CharClass.isFirm : CharClass → Bool
  | .letter p => !isRemovable (Text.foldLetter p)
  | .exact p => !isRemovable p
  | .blank | .word => false

/-- Do the elements begin and end with such letters or marks? -/
def hasFirmEnds (es : List Element) : Bool :=
  match es.head?, es.getLast? with
  | some (.one k), some (.one l) => k.isFirm && l.isFirm
  | _, _ => false

theorem normalize_split (t : Text) :
    ∃ before after, t = before ++ normalize t ++ after ∧ (∀ c ∈ before, isRemovable c) ∧
      ∀ c ∈ after, isRemovable c := by
  obtain ⟨before, after, split, leading, trailing⟩ := Text.trim_split t
  have removable : ∀ c, Text.isBlank c = true → isRemovable c = true := by
    intro c blank
    rw [isRemovable, blank, Bool.true_or]
  rw [normalize]
  split
  · rename_i semicolon
    refine ⟨before, [.char ';'] ++ after, ?_, fun c member => removable c (leading c member), ?_⟩
    · have whole := List.dropLast_append_getLast? _ semicolon
      rw [List.append_assoc, ← List.append_assoc t.trim.dropLast, whole, ← List.append_assoc]
      exact split
    · intro c member
      rcases List.mem_append.mp member with semicolon | blank
      · rw [List.mem_singleton.mp semicolon]
        decide
      · exact removable c (trailing c blank)
  · exact ⟨before, after, split, fun c member => removable c (leading c member),
      fun c member => removable c (trailing c member)⟩

/-- A text stays as it is if it neither begins nor ends with what normalizing may take off. -/
theorem normalize_eq_self (first : ∀ c, t.head? = some c → isRemovable c = false)
    (last : ∀ c, t.getLast? = some c → isRemovable c = false) : normalize t = t := by
  have kept : t.trim = t :=
    Text.trim_eq_self (fun c begins => (Bool.or_eq_false_iff.mp (first c begins)).1)
      fun c ends => (Bool.or_eq_false_iff.mp (last c ends)).1
  have noSemicolon : t.getLast? ≠ some (.char ';') := by
    intro ends
    exact absurd (last _ ends) (by decide)
  rw [normalize, kept]
  exact if_neg noSemicolon

theorem isRemovable_of_word (word : Text.isAsciiWord c = true) : isRemovable c = false := by
  by_cases special : c = ' ' ∨ c = ';' ∨ c = '_'
  · rcases special with rfl | rfl | rfl
    · cases word
    · cases word
    · decide
  · obtain ⟨space, semicolon, underscore⟩ : c ≠ ' ' ∧ c ≠ ';' ∧ c ≠ '_' := by
      simpa only [not_or] using special
    have range : c.toNat < 128 ∧ 48 ≤ c.toNat := by
      simp only [Text.isAsciiWord, Text.isAsciiLetter, Text.isAsciiDigit, Bool.or_eq_true,
        Bool.and_eq_true, decide_eq_true_eq, beq_iff_eq, underscore, or_false] at word
      omega
    simp only [isRemovable, Text.isBlank, Text.isAsciiBlank, Bool.or_eq_false_iff,
      beq_eq_false_iff_ne, Bool.and_eq_false_iff, decide_eq_false_iff_not]
    simp only [space, semicolon, ne_eq, not_false_eq_true, true_and, and_true]
    omega

/-! ### Firm ends -/

theorem toNat_of_removable (removable : isRemovable c = true) :
    (c.toNat < 65 ∨ 90 < c.toNat) ∧ c.toNat ≠ 304 ∧ c.toNat ≠ 305 ∧ c.toNat ≠ 383 ∧
      c.toNat ≠ 0x212a := by
  by_cases space : c = ' '
  · subst space
    decide
  by_cases semicolon : c = ';'
  · subst semicolon
    decide
  simp only [isRemovable, Text.isBlank, Text.isAsciiBlank, Bool.or_eq_true, Bool.and_eq_true,
    decide_eq_true_eq, beq_iff_eq, space, semicolon, false_or, or_false] at removable
  omega

theorem toLower_eq_self (small : c.toNat < 65 ∨ 90 < c.toNat) : c.toLower = c := by
  cases c with
  | char c =>
    have outside : ¬(c.val ≥ 'A'.val ∧ c.val ≤ 'Z'.val) := by
      rintro ⟨low, high⟩
      have low : 65 ≤ c.toNat := low
      have high : c.toNat ≤ 90 := high
      simp only [CodePoint.toNat] at small
      omega
    have kept : c.toLower = c := dif_neg outside
    rw [CodePoint.toLower, kept]
  | high k => rfl
  | low k => rfl

/-- A character outside the letters has no other case. -/
theorem foldLetter_of_removable (removable : isRemovable c = true) : Text.foldLetter c = c := by
  obtain ⟨small, dotted, dotless, long, kelvin⟩ := toNat_of_removable removable
  have different : ∀ {d : CodePoint}, c.toNat ≠ d.toNat → c ≠ d := by
    rintro d ne rfl
    exact ne rfl
  have notI : ¬(c = 'İ' ∨ c = 'ı') := not_or.mpr ⟨different dotted, different dotless⟩
  have notS : c ≠ 'ſ' := different long
  have notK : c ≠ .ofNat 0x212a := different kelvin
  rw [Text.foldLetter, if_neg notI, if_neg notS, if_neg notK, toLower_eq_self small]

theorem isRemovable_of_isFirm (firm : k.isFirm = true) (holds : k.holds c = true) :
    isRemovable c = false := by
  cases k with
  | letter p =>
    cases removable : isRemovable c with
    | false => rfl
    | true =>
      have same : Text.foldLetter p = Text.foldLetter c := by
        simpa [CharClass.holds, Text.matchesLetter] using holds
      rw [foldLetter_of_removable removable] at same
      rw [CharClass.isFirm, same, removable] at firm
      cases firm
  | exact p =>
    obtain rfl : p = c := by simpa [CharClass.holds] using holds
    simpa [CharClass.isFirm] using firm
  | blank => cases firm
  | word => cases firm

theorem spells_head (spelled : Spells es t) (head : es.head? = some (.one k)) :
    ∃ c rest, t = c :: rest ∧ k.holds c := by
  cases spelled with
  | nil => cases head
  | one holds _ =>
    cases head
    exact ⟨_, _, rfl, holds⟩
  | done _ => cases head
  | more _ _ => cases head

theorem spells_last (spelled : Spells es t) (last : es.getLast? = some (.one k)) :
    ∃ rest c, t = rest ++ [c] ∧ k.holds c := by
  induction spelled with
  | nil => cases last
  | @one l es c t holds rest ih =>
    cases es with
    | nil =>
      cases rest
      cases last
      exact ⟨[], c, rfl, holds⟩
    | cons e es =>
      obtain ⟨front, d, rfl, final⟩ := ih (by rw [← last, List.getLast?_cons_cons])
      exact ⟨c :: front, d, rfl, final⟩
  | @done l es t rest ih =>
    cases es with
    | nil => cases last
    | cons e es => exact ih (by rw [← last, List.getLast?_cons_cons])
  | more _ _ ih =>
    obtain ⟨front, d, rfl, final⟩ := ih last
    exact ⟨_ :: front, d, rfl, final⟩

theorem firm_ends (firm : hasFirmEnds es = true) (spelled : Spells es t) :
    (∃ c rest, t = c :: rest ∧ isRemovable c = false) ∧
      ∃ rest c, t = rest ++ [c] ∧ isRemovable c = false := by
  unfold hasFirmEnds at firm
  split at firm
  · rename_i k l head last
    rw [Bool.and_eq_true] at firm
    obtain ⟨c, rest, split, holds⟩ := spells_head spelled head
    obtain ⟨front, d, splitLast, holdsLast⟩ := spells_last spelled last
    exact ⟨⟨c, rest, split, isRemovable_of_isFirm firm.1 holds⟩,
      front, d, splitLast, isRemovable_of_isFirm firm.2 holdsLast⟩
  · cases firm

/-- No match begins in what is taken off at the beginning. -/
theorem occurs_append_left {before : Text} (firm : hasFirmEnds es = true)
    (leading : ∀ c ∈ before, isRemovable c) : Occurs es (before ++ t) ↔ Occurs es t := by
  constructor
  · rintro ⟨front, middle, back, split, spelled⟩
    obtain ⟨⟨c, rest, rfl, kept⟩, _⟩ := firm_ends firm spelled
    rw [List.append_assoc] at split
    rcases List.append_eq_append_iff.mp split with ⟨front', rfl, inside⟩ | ⟨overlap, rfl, inside⟩
    · exact ⟨front', c :: rest, back, by rw [inside, List.append_assoc], spelled⟩
    · cases overlap with
      | nil => exact ⟨[], c :: rest, back, inside.symm, spelled⟩
      | cons d overlap =>
        -- the match would begin with a character that is taken off
        obtain ⟨rfl, _⟩ := List.cons.inj inside
        rw [leading c (List.mem_append_right _ List.mem_cons_self)] at kept
        cases kept
  · rintro ⟨front, middle, back, rfl, spelled⟩
    exact ⟨before ++ front, middle, back, by simp only [List.append_assoc], spelled⟩

/-- No match ends in what is taken off at the end. -/
theorem occurs_append_right {after : Text} (firm : hasFirmEnds es = true)
    (trailing : ∀ c ∈ after, isRemovable c) : Occurs es (t ++ after) ↔ Occurs es t := by
  constructor
  · rintro ⟨front, middle, back, split, spelled⟩
    obtain ⟨_, rest, c, rfl, kept⟩ := firm_ends firm spelled
    rcases List.append_eq_append_iff.mp split with ⟨overlap, inside, rfl⟩ | ⟨back', rfl, rfl⟩
    · rcases List.eq_nil_or_concat overlap with rfl | ⟨overlap, d, rfl⟩
      · rw [List.append_nil] at inside
        exact ⟨front, rest ++ [c], [], by rw [← inside, List.append_nil], spelled⟩
      · -- the match would end with a character that is taken off
        rw [List.concat_eq_append, ← List.append_assoc, ← List.append_assoc] at inside
        obtain ⟨_, same⟩ := List.append_inj' inside rfl
        obtain rfl : c = d := List.head_eq_of_cons_eq same
        rw [trailing c (by simp)] at kept
        cases kept
    · exact ⟨front, rest ++ [c], back', rfl, spelled⟩
  · rintro ⟨front, middle, back, rfl, spelled⟩
    exact ⟨front, middle, back ++ after, by simp only [List.append_assoc], spelled⟩

/-! ### The deny list -/

theorem denyList_firm : ∀ p ∈ denyList, hasFirmEnds p.elements = true := by
  decide

theorem occurs_normalize {p : Pattern} (listed : p ∈ denyList) (t : Text) :
    Occurs p.elements (normalize t) ↔ Occurs p.elements t := by
  obtain ⟨before, after, split, leading, trailing⟩ := normalize_split t
  have firm := denyList_firm p listed
  calc Occurs p.elements (normalize t)
      ↔ Occurs p.elements (before ++ normalize t) := (occurs_append_left firm leading).symm
    _ ↔ Occurs p.elements (before ++ normalize t ++ after) :=
        (occurs_append_right firm trailing).symm
    _ ↔ Occurs p.elements t := by rw [← split]

theorem findViolation_normalize (t : Text) : findViolation (normalize t) = findViolation t :=
  findViolation_congr fun _ listed => occurs_normalize listed t

end GuardedConsole.Screening
