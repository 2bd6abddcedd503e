import Mathlib
import GuardedConsole.Text.Basic

/-!
# Texts of lines

`lines` cuts a text in which every line has an end. Texts that are written as lines one after another are
read back exactly if there is no end of a line in them (`lines_flatMap_twoLines_iff`).
-/

namespace GuardedConsole.Text

variable {ends : CodePoint → Bool} {first rest t : Text} {c : CodePoint}

/-- The text has no end of a line in it. -/
def IsUnbroken (ends : CodePoint → Bool) (t : Text) : Prop :=
  ∀ c ∈ t, ends c = false

instance (ends : CodePoint → Bool) (t : Text) : Decidable (IsUnbroken ends t) :=
  inferInstanceAs (Decidable (∀ c ∈ t, ends c = false))

/-- The lines of a text in which every line has an end. -/
def lines (ends : CodePoint → Bool) (t : Text) : List Text :=
  (t.splitOnP ends).dropLast

@[simp]
theorem isUnbroken_cons : IsUnbroken ends (c :: t) ↔ ends c = false ∧ IsUnbroken ends t :=
  List.forall_mem_cons

@[simp]
theorem isUnbroken_append {s t : Text} :
    IsUnbroken ends (s ++ t) ↔ IsUnbroken ends s ∧ IsUnbroken ends t :=
  List.forall_mem_append

theorem IsUnbroken.mono {ends' : CodePoint → Bool} (fewer : ∀ c, ends' c = true → ends c = true)
    (unbroken : IsUnbroken ends t) : IsUnbroken ends' t := by
  intro c member
  cases ended : ends' c with
  | false => rfl
  | true => exact (fewer c ended).symm.trans (unbroken c member)

theorem lines_append_cons (ended : ends c = true) (first rest : Text) :
    lines ends (first ++ c :: rest) = first.splitOnP ends ++ lines ends rest := by
  rw [lines, List.splitOnP_append_cons first rest ended,
    List.dropLast_append_of_ne_nil (List.splitOnP_ne_nil ends rest)]
  rfl

theorem length_splitOnP (ends : CodePoint → Bool) (t : Text) :
    (t.splitOnP ends).length = t.countP ends + 1 := by
  induction t with
  | nil => rw [List.splitOnP_nil]; rfl
  | cons c t ih =>
    rw [List.splitOnP_cons_eq_if_modifyHead]
    split
    · rename_i ended
      rw [List.length_cons, ih, List.countP_cons_of_pos ended]
    · rename_i inside
      rw [List.length_modifyHead, ih, List.countP_cons_of_neg inside]

/-- A text without ends is one piece, and no other text is. -/
theorem length_splitOnP_eq_one_iff : (t.splitOnP ends).length = 1 ↔ IsUnbroken ends t := by
  rw [length_splitOnP, Nat.add_eq_right, List.countP_eq_zero]
  simp only [IsUnbroken, Bool.not_eq_true]

theorem splitOnP_eq_singleton (unbroken : IsUnbroken ends t) : t.splitOnP ends = [t] :=
  List.splitOnP_eq_singleton unbroken

theorem isUnbroken_firstLine (t : Text) : IsUnbroken isLineBreak t.firstLine := by
  intro c member
  simpa using List.mem_takeWhile_imp member

/-- Two texts, each with a line feed behind it. -/
def twoLines (pair : Text × Text) : Text :=
  pair.1 ++ .char '\n' :: (pair.2 ++ [.char '\n'])

theorem lines_twoLines_append (feed : ends '\n' = true) (pair : Text × Text) (rest : Text) :
    lines ends (twoLines pair ++ rest) =
      pair.1.splitOnP ends ++ (pair.2.splitOnP ends ++ lines ends rest) := by
  rw [twoLines, List.append_assoc, List.cons_append, List.append_assoc, lines_append_cons feed,
    List.cons_append, List.nil_append, lines_append_cons feed]

theorem two_mul_length_le_lines (feed : ends '\n' = true) (pairs : List (Text × Text)) :
    2 * pairs.length ≤ (lines ends (pairs.flatMap twoLines)).length := by
  induction pairs with
  | nil => exact Nat.zero_le _
  | cons pair pairs ih =>
    rw [List.flatMap_cons, lines_twoLines_append feed, List.length_append, List.length_append,
      length_splitOnP, length_splitOnP, List.length_cons]
    omega

/-- Pairs of texts that are written one after another can be told apart as lines exactly if no text has
an end of a line in it. -/
theorem lines_flatMap_twoLines_iff (feed : ends '\n' = true) (pairs : List (Text × Text)) :
    lines ends (pairs.flatMap twoLines) = pairs.flatMap (fun pair => [pair.1, pair.2]) ↔
      ∀ pair ∈ pairs, IsUnbroken ends pair.1 ∧ IsUnbroken ends pair.2 := by
  induction pairs with
  | nil => simp [lines, List.splitOnP_nil]
  | cons pair pairs ih =>
    rw [List.flatMap_cons, List.flatMap_cons, lines_twoLines_append feed, List.forall_mem_cons, ← ih]
    constructor
    · intro same
      -- no text gives less than one line, so that none can give more than one
      have lengths := congrArg List.length same
      have enough := two_mul_length_le_lines feed pairs
      have two : (pairs.flatMap fun pair => [pair.1, pair.2]).length = 2 * pairs.length := by
        simp [List.length_flatMap, Nat.mul_comm]
      simp only [List.length_append, length_splitOnP, two, List.length_cons, List.length_nil]
        at lengths
      have unbroken : IsUnbroken ends pair.1 ∧ IsUnbroken ends pair.2 := by
        rw [← length_splitOnP_eq_one_iff, ← length_splitOnP_eq_one_iff, length_splitOnP,
          length_splitOnP]
        omega
      rw [splitOnP_eq_singleton unbroken.1, splitOnP_eq_singleton unbroken.2] at same
      exact ⟨unbroken, (List.append_right_inj [pair.1, pair.2]).mp same⟩
    · rintro ⟨⟨first, second⟩, same⟩
      rw [splitOnP_eq_singleton first, splitOnP_eq_singleton second, same]
      rfl

end GuardedConsole.Text
