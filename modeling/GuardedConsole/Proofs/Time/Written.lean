import Mathlib
import GuardedConsole.Proofs.Screening.Normalizing
import GuardedConsole.Time.Written

/-!
# Readings of written dates

A reading of a text by a form cuts the text into pieces, one for each item: `matches_cons` takes off
the first piece, and `Spells` says what it can be and which number it stands for. The pieces of digits
and of letters are as long as they can be, because they end at a blank, a mark or the end. So all
readings that use up a text by forms that differ only in the length of the month's name give the same
fields (`fields_unique`).
-/

namespace GuardedConsole.Time.Written

open Text

/-! ### Kinds and pieces -/

/-- What a character can be in a written date. -/
inductive Kind where
  | digit
  | blank
  | letter
  | mark
deriving DecidableEq

/-- A digit of some script, a blank, a letter of the name of a month, or none of these. -/
def kind (c : CodePoint) : Kind :=
  if (digitValue? c).isSome then .digit
  else if isBlank c then .blank
  else if monthNames.flatten.contains c.toLower then .letter
  else .mark

/-- Does the item stand for a number of one or two digits? -/
def Item.isShortNumber : Item → Bool
  | .month | .day | .hour | .minute | .second => true
  | _ => false

/-- The number that digits denote. -/
def numberOf (t : Text) : Nat :=
  t.foldl (fun n c => 10 * n + (digitValue? c).getD 0) 0

/-- The name of a month in a form. -/
def monthText (long : Bool) (name : Text) : Text :=
  if long then name else name.take 3

/-- The piece of a text that an item of a form takes up, and the number that it stands for. -/
inductive Spells : Item → Text → Nat → Prop where
  | mark {c : CodePoint} {n : Nat} : Spells (.mark c) [c] n
  | blanks {used : Text} {n : Nat} : used ≠ [] → (∀ c ∈ used, kind c = .blank) →
    Spells .blanks used n
  | monthName {name used : Text} {n : Nat} {long : Bool} : (name, n) ∈ monthNames.zipIdx 1 →
    used.map CodePoint.toLower = monthText long name → Spells (.monthName long) used n
  | year {used : Text} : used.length = 4 → (∀ c ∈ used, kind c = .digit) →
    Spells .year used (numberOf used)
  | number {item : Item} {fill digits : Text} : item.isShortNumber = true →
    (∀ c ∈ fill, kind c = .blank) → digits ≠ [] → (∀ c ∈ digits, kind c = .digit) →
    (fill ++ digits).length ≤ 2 → Spells item (fill ++ digits) (numberOf digits)

variable {c x : CodePoint} {t t' used used' rest rest' last : Text} {item item' : Item}
  {form form' : Form} {f g g' : Fields} {n n' : Nat}

/-! ### The kinds are apart -/

theorem kind_eq_digit_iff : kind c = .digit ↔ (digitValue? c).isSome = true := by
  unfold kind
  split
  · simp_all
  · split
    · simp_all
    · split <;> simp_all

/-- A digit is one of the ten characters from the zero of its script on. -/
theorem exists_zero (digit : (digitValue? c).isSome = true) :
    ∃ first ∈ 48 :: decimalZeros, first ≤ c.toNat ∧ c.toNat < first + 10 := by
  unfold digitValue? at digit
  split at digit
  · rename_i ascii
    simp only [isAsciiDigit, Bool.and_eq_true, decide_eq_true_eq] at ascii
    exact ⟨48, List.mem_cons_self, ascii.1, by omega⟩
  · rw [Option.isSome_map, List.find?_isSome] at digit
    obtain ⟨first, listed, inside⟩ := digit
    simp only [Bool.and_eq_true, decide_eq_true_eq] at inside
    exact ⟨first, List.mem_cons_of_mem _ listed, inside⟩

theorem digits_not_blank : ∀ first ∈ 48 :: decimalZeros, ∀ k < 10,
    isBlank (.ofNat (first + k)) = false := by
  decide +kernel

theorem kind_of_blank (blank : isBlank c = true) : kind c = .blank := by
  have noDigit : ¬(digitValue? c).isSome = true := by
    intro digit
    obtain ⟨first, listed, low, high⟩ := exists_zero digit
    have notBlank := digits_not_blank first listed (c.toNat - first) (by omega)
    rw [Nat.add_sub_cancel' low, CodePoint.ofNat_toNat, blank] at notBlank
    cases notBlank
  rw [kind, if_neg noDigit, if_pos blank]

/-- The letters of the months are small ASCII letters. -/
theorem letters_small : ∀ c ∈ monthNames.flatten,
    97 ≤ c.toNat ∧ c.toNat ≤ 122 ∧ isBlank c = false := by
  decide +kernel

theorem zeros_not_letters : ∀ first ∈ 48 :: decimalZeros, first = 48 ∨ 122 < first := by
  decide +kernel

theorem kind_of_letter (letter : c.toLower ∈ monthNames.flatten) : kind c = .letter := by
  have noBlank : ¬isBlank c = true := by
    intro blank
    have removable : Screening.isRemovable c = true := by rw [Screening.isRemovable, blank]; rfl
    rw [Screening.toLower_eq_self (Screening.toNat_of_removable removable).1] at letter
    rw [(letters_small c letter).2.2] at blank
    cases blank
  have ascii : 65 ≤ c.toNat ∧ c.toNat ≤ 122 := by
    by_cases small : c.toNat < 65 ∨ 90 < c.toNat
    · rw [Screening.toLower_eq_self small] at letter
      have := letters_small c letter
      omega
    · omega
  have noDigit : ¬(digitValue? c).isSome = true := by
    intro digit
    obtain ⟨first, listed, low, high⟩ := exists_zero digit
    rcases zeros_not_letters first listed with rfl | above <;> omega
  rw [kind, if_neg noDigit, if_neg noBlank, if_pos (List.contains_iff_mem.mpr letter)]

/-! ### What items read -/

/-- A place of a shape that takes decimal digits only, each at its value. -/
def TakesDecimal (place : CodePoint → Option Nat) : Prop :=
  ∀ c d, place c = some d → digitValue? c = some d

@[simp] theorem takesDecimal_digitValue : TakesDecimal digitValue? :=
  fun _ _ digit => digit

@[simp] theorem takesDecimal_asciiDigit (low high : Nat) : TakesDecimal (asciiDigit low high) := by
  intro c d digit
  unfold asciiDigit at digit
  split at digit
  · rename_i inside
    cases digit
    rw [digitValue?, if_pos inside.1]
    rfl
  · cases digit

theorem readDigits_split {shape : List (CodePoint → Option Nat)}
    (decimal : ∀ place ∈ shape, TakesDecimal place)
    (read : readDigits shape n t = some (n', rest)) :
    ∃ used, t = used ++ rest ∧ used.length = shape.length ∧ (∀ c ∈ used, kind c = .digit) ∧
      n' = used.foldl (fun n c => 10 * n + (digitValue? c).getD 0) n := by
  induction shape generalizing n t with
  | nil =>
    cases read
    exact ⟨[], rfl, rfl, List.forall_mem_nil _, rfl⟩
  | cons place shape ih =>
    obtain ⟨first, others⟩ := List.forall_mem_cons.mp decimal
    cases t with
    | nil => cases read
    | cons c t =>
      rw [readDigits] at read
      split at read
      · cases read
      · rename_i d found
        obtain ⟨used, rfl, length, digits, value⟩ := ih others read
        have here := first c d found
        refine ⟨c :: used, rfl, by rw [List.length_cons, length]; rfl, ?_, ?_⟩
        · exact List.forall_mem_cons.mpr ⟨kind_eq_digit_iff.mpr (by rw [here]; rfl), digits⟩
        · rw [List.foldl_cons, here]
          exact value

/-- A short number has one or two digits, or one digit behind a space. -/
theorem shape_cases (short : item.isShortNumber = true) {shape : List (CodePoint → Option Nat)}
    (listed : shape ∈ shapes item) :
    (∀ place ∈ shape, TakesDecimal place) ∧ 0 < shape.length ∧ shape.length ≤ 2 ∨
      ∃ place, shape = [spaceDigit, place] ∧ TakesDecimal place := by
  cases item with
  | month | hour | minute | second =>
    left
    simp only [shapes, List.mem_cons, List.not_mem_nil, or_false] at listed
    rcases listed with rfl | rfl | rfl <;> simp
  | day =>
    simp only [shapes, List.mem_cons, List.not_mem_nil, or_false] at listed
    rcases listed with rfl | rfl | rfl | rfl | rfl
    · left; simp
    · left; simp
    · left; simp
    · left; simp
    · exact .inr ⟨_, rfl, takesDecimal_asciiDigit 1 9⟩
  | _ => cases short

/-- What a short number takes up. -/
theorem spells_number (short : item.isShortNumber = true) {shape : List (CodePoint → Option Nat)}
    (listed : shape ∈ shapes item) (read : readDigits shape 0 t = some (n, rest)) :
    ∃ used, t = used ++ rest ∧ Spells item used n := by
  rcases shape_cases short listed with ⟨decimal, one, two⟩ | ⟨place, rfl, decimal⟩
  · obtain ⟨used, rfl, length, digits, rfl⟩ := readDigits_split decimal read
    have some : used ≠ [] := List.ne_nil_of_length_pos (length ▸ one)
    exact ⟨[] ++ used, rfl, .number short (List.forall_mem_nil _) some digits (length ▸ two)⟩
  · cases t with
    | nil => cases read
    | cons c t =>
      rw [readDigits] at read
      unfold spaceDigit at read
      split at read
      · cases read
      · rename_i d space
        split at space
        · rename_i here
          cases space
          obtain ⟨used, rfl, length, digits, rfl⟩ :=
            readDigits_split (List.forall_mem_singleton.mpr decimal) read
          refine ⟨[c] ++ used, rfl, .number short ?_ ?_ digits ?_⟩
          · exact List.forall_mem_singleton.mpr (here ▸ kind_of_blank (by decide))
          · exact List.ne_nil_of_length_pos (length ▸ Nat.one_pos)
          · exact (congrArg Nat.succ length).le
        · cases space

theorem afterWord_split {word : Text} (read : afterWord word t = some rest) :
    ∃ used, t = used ++ rest ∧ used.map CodePoint.toLower = word := by
  induction word generalizing t with
  | nil =>
    cases read
    exact ⟨[], rfl, rfl⟩
  | cons letter word ih =>
    cases t with
    | nil => cases read
    | cons c t =>
      rw [afterWord] at read
      split at read
      · rename_i same
        obtain ⟨used, rfl, lower⟩ := ih read
        exact ⟨c :: used, rfl, by rw [List.map_cons, lower, same]⟩
      · cases read

theorem afterBlanks_split (read : rest ∈ afterBlanks t) :
    ∃ used, t = used ++ rest ∧ used ≠ [] ∧ ∀ c ∈ used, kind c = .blank := by
  induction t with
  | nil => cases read
  | cons c t ih =>
    rw [afterBlanks] at read
    split at read
    · rename_i blank
      have here := kind_of_blank blank
      rcases List.mem_append.mp read with later | last
      · obtain ⟨used, rfl, _, blanks⟩ := ih later
        exact ⟨c :: used, rfl, List.cons_ne_nil _ _, List.forall_mem_cons.mpr ⟨here, blanks⟩⟩
      · obtain rfl := List.mem_singleton.mp last
        exact ⟨[c], rfl, List.cons_ne_nil _ _, List.forall_mem_singleton.mpr here⟩
    · cases read

/-- What an item reads is a piece at the beginning, and sets the item's field to its number. -/
theorem readItem_split (read : (g, rest) ∈ readItem f item t) :
    ∃ used n, t = used ++ rest ∧ g = put f item n ∧ Spells item used n := by
  cases item with
  | mark c =>
    cases t with
    | nil => cases read
    | cons d t =>
      simp only [readItem] at read
      split at read
      · rename_i same
        obtain ⟨rfl, rfl⟩ := Prod.mk.inj (List.mem_singleton.mp read)
        exact ⟨[c], 0, by rw [same]; rfl, rfl, .mark⟩
      · cases read
  | blanks =>
    obtain ⟨last, listed, same⟩ := List.mem_map.mp read
    obtain ⟨rfl, rfl⟩ := Prod.mk.inj same
    obtain ⟨used, rfl, some, blanks⟩ := afterBlanks_split listed
    exact ⟨used, 0, rfl, rfl, .blanks some blanks⟩
  | monthName long =>
    obtain ⟨⟨n, last⟩, listed, same⟩ := List.mem_map.mp read
    obtain ⟨rfl, rfl⟩ := Prod.mk.inj same
    obtain ⟨⟨name, number⟩, named, found⟩ := List.mem_filterMap.mp listed
    obtain ⟨behind, word, same⟩ := Option.map_eq_some_iff.mp found
    obtain ⟨rfl, rfl⟩ := Prod.mk.inj same
    obtain ⟨used, rfl, lower⟩ := afterWord_split word
    exact ⟨used, number, rfl, rfl, .monthName named lower⟩
  | year =>
    obtain ⟨shape, listed, found⟩ := List.mem_filterMap.mp read
    obtain ⟨⟨n, last⟩, digits, same⟩ := Option.map_eq_some_iff.mp found
    obtain ⟨rfl, rfl⟩ := Prod.mk.inj same
    obtain rfl := List.mem_singleton.mp listed
    obtain ⟨used, rfl, length, four, rfl⟩ := readDigits_split (by simp) digits
    exact ⟨used, _, rfl, rfl, .year length four⟩
  | month | day | hour | minute | second =>
    obtain ⟨shape, listed, found⟩ := List.mem_filterMap.mp read
    obtain ⟨⟨n, last⟩, digits, same⟩ := Option.map_eq_some_iff.mp found
    obtain ⟨rfl, rfl⟩ := Prod.mk.inj same
    obtain ⟨used, rfl, spells⟩ := spells_number rfl listed digits
    exact ⟨used, n, rfl, rfl, spells⟩

/-! ### What forms read -/

/-- A reading by a form begins with a piece for its first item. -/
theorem matches_cons (read : (g, last) ∈ Form.matches f (item :: form) t) :
    ∃ used n rest, t = used ++ rest ∧ Spells item used n ∧
      (g, last) ∈ Form.matches (put f item n) form rest := by
  rw [Form.matches, List.mem_flatMap] at read
  obtain ⟨⟨f', rest⟩, first, others⟩ := read
  obtain ⟨used, n, rfl, rfl, spells⟩ := readItem_split first
  exact ⟨used, n, rest, rfl, spells, others⟩

theorem spells_mark (spells : Spells (.mark c) used n) : used = [c] := by
  cases spells with
  | mark => rfl
  | number short => cases short

theorem spells_blanks (spells : Spells .blanks used n) :
    used ≠ [] ∧ ∀ c ∈ used, kind c = .blank := by
  cases spells with
  | blanks some blank => exact ⟨some, blank⟩
  | number short => cases short

theorem monthText_letters : ∀ named ∈ monthNames.zipIdx 1, ∀ long,
    monthText long named.1 ≠ [] ∧ ∀ c ∈ monthText long named.1, c ∈ monthNames.flatten := by
  decide +kernel

/-- The pieces of names are letters. -/
theorem letters_of_spells {long : Bool} (spells : Spells (.monthName long) used n) :
    used ≠ [] ∧ (∀ c ∈ used, kind c = .letter) ∧
      ∃ name, (name, n) ∈ monthNames.zipIdx 1 ∧ used.map CodePoint.toLower = monthText long name := by
  cases spells with
  | @monthName name _ _ _ named lower =>
    obtain ⟨some, letters⟩ := monthText_letters (name, n) named long
    refine ⟨?_, ?_, name, named, lower⟩
    · rintro rfl
      exact some lower.symm
    · intro c member
      have inside : c.toLower ∈ monthText long name := lower ▸ List.mem_map_of_mem member
      exact kind_of_letter (letters _ inside)
  | number short => cases short

/-- The pieces of numbers are digits, maybe behind blanks. -/
theorem digits_of_spells (numeral : item.isShortNumber = true ∨ item = .year)
    (spells : Spells item used n) :
    ∃ fill digits, used = fill ++ digits ∧ (∀ c ∈ fill, kind c = .blank) ∧ digits ≠ [] ∧
      (∀ c ∈ digits, kind c = .digit) ∧ n = numberOf digits := by
  cases spells with
  | year length digits =>
    exact ⟨[], used, rfl, List.forall_mem_nil _, List.ne_nil_of_length_pos (by omega), digits, rfl⟩
  | number _ blank some digits => exact ⟨_, _, rfl, blank, some, digits, rfl⟩
  | mark | blanks | monthName => simp [Item.isShortNumber] at numeral

theorem length_of_spells (short : item.isShortNumber = true) (spells : Spells item used n) :
    used.length ≤ 2 := by
  cases spells with
  | number _ _ _ _ few => exact few
  | mark | blanks | monthName | year => cases short

/-- A mark is part of a piece only if the piece is nothing else. -/
theorem count_of_spells (marked : kind x = .mark) (spells : Spells item used n) :
    used.count x = [item].count (.mark x) := by
  have apart {k : Kind} {t : Text} (other : k ≠ .mark) (all : ∀ c ∈ t, kind c = k) :
      t.count x = 0 :=
    List.count_eq_zero_of_not_mem fun member => other ((all x member).symm.trans marked)
  cases item with
  | mark c =>
    rw [spells_mark spells]
    simp [List.count_singleton]
  | blanks =>
    rw [apart (by decide) (spells_blanks spells).2]
    rfl
  | monthName long =>
    rw [apart (by decide) (letters_of_spells spells).2.1]
    rfl
  | year | month | day | hour | minute | second =>
    obtain ⟨fill, digits, rfl, blank, _, digit, _⟩ :=
      digits_of_spells (by simp [Item.isShortNumber]) spells
    rw [List.count_append, apart (by decide) blank, apart (by decide) digit]
    rfl

theorem count_of_matches (marked : kind x = .mark)
    (read : (g, last) ∈ Form.matches f form t) :
    t.count x = form.count (.mark x) + last.count x := by
  induction form generalizing f t with
  | nil =>
    obtain ⟨rfl, rfl⟩ := Prod.mk.inj (List.mem_singleton.mp read)
    simp
  | cons item form ih =>
    obtain ⟨used, n, rest, rfl, spells, others⟩ := matches_cons read
    have split : ([item] ++ form).count (.mark x) = [item].count (.mark x) + form.count (.mark x) :=
      List.count_append
    rw [List.singleton_append] at split
    rw [List.count_append, count_of_spells marked spells, ih others, split, Nat.add_assoc]

/-! ### Only one way to read -/

/-- A text without the blanks at its beginning. -/
def bare (t : Text) : Text :=
  t.dropWhile fun c => kind c = .blank

/-- Is the item blanks or a mark? -/
def Item.separates : Item → Bool
  | .blanks | .mark _ => true
  | _ => false

/-- A mark must not be taken for a part of another item. -/
def Item.isApt : Item → Bool
  | .mark c => kind c = .mark
  | _ => true

/-- Numbers and names stand apart from each other, and marks are marks. -/
structure Form.Separated (form : Form) : Prop where
  apart : form.IsChain fun a b => a.separates = true ∨ b.separates = true
  apt : ∀ item ∈ form, item.isApt = true

/-- The text is at its end, or goes on with a blank or a mark. -/
def Pauses (t : Text) : Prop :=
  ∀ c, t.head? = some c → kind c = .blank ∨ kind c = .mark

/-- The item with the name of a month shortened. -/
def Item.short : Item → Item
  | .monthName _ => .monthName false
  | item => item

theorem short_cases (same : item.short = item'.short) :
    item = item' ∨ ∃ long long', item = .monthName long ∧ item' = .monthName long' := by
  cases item with
  | monthName long =>
    cases item' with
    | monthName long' => exact .inr ⟨long, long', rfl, rfl⟩
    | _ => cases same
  | _ =>
    left
    cases item' with
    | monthName long' => cases same
    | _ => exact same

theorem bare_append (blank : ∀ c ∈ used, kind c = .blank) (rest : Text) :
    bare (used ++ rest) = bare rest :=
  List.dropWhile_append_of_pos fun c member => decide_eq_true (blank c member)

theorem bare_eq_self (firm : ∀ c, t.head? = some c → kind c ≠ .blank) : bare t = t := by
  cases t with
  | nil => rfl
  | cons c t => exact List.dropWhile_cons_of_neg (by simpa using firm c rfl)

/-- A piece of one kind in front of a pause is as long as the kind goes. -/
theorem piece_unique {k : Kind} (inner : k ≠ .blank ∧ k ≠ .mark) (all : ∀ c ∈ used, kind c = k)
    (all' : ∀ c ∈ used', kind c = k) (pauses : Pauses rest) (pauses' : Pauses rest')
    (same : used ++ rest = used' ++ rest') : used = used' ∧ rest = rest' := by
  have longest {used rest : Text} (all : ∀ c ∈ used, kind c = k) (pauses : Pauses rest) :
      (used ++ rest).takeWhile (fun c => kind c = k) = used := by
    have stop : rest.takeWhile (fun c => kind c = k) = [] := by
      cases rest with
      | nil => rfl
      | cons c rest =>
        refine List.takeWhile_cons_of_neg ?_
        rcases pauses c rfl with blank | mark
        · simpa [blank] using inner.1.symm
        · simpa [mark] using inner.2.symm
    rw [List.takeWhile_append_of_pos fun c member => decide_eq_true (all c member), stop,
      List.append_nil]
  have pieces : used = used' := by
    rw [← longest all pauses, same, longest all' pauses']
  subst pieces
  exact ⟨rfl, List.append_cancel_left same⟩

theorem bare_piece {k : Kind} (firm : k ≠ .blank) (some : used ≠ [])
    (all : ∀ c ∈ used, kind c = k) (rest : Text) : bare (used ++ rest) = used ++ rest := by
  obtain ⟨c, t, rfl⟩ := List.exists_cons_of_ne_nil some
  refine bare_eq_self fun d first => ?_
  obtain rfl : c = d := Option.some.inj first
  rw [all c List.mem_cons_self]
  exact firm

theorem numbers_agree (numeral : item.isShortNumber = true ∨ item = .year)
    (spells : Spells item used n) (spells' : Spells item used' n') (pauses : Pauses rest)
    (pauses' : Pauses rest') (same : bare (used ++ rest) = bare (used' ++ rest')) :
    n = n' ∧ rest = rest' := by
  obtain ⟨fill, digits, rfl, blank, some, digit, rfl⟩ := digits_of_spells numeral spells
  obtain ⟨fill', digits', rfl, blank', some', digit', rfl⟩ := digits_of_spells numeral spells'
  rw [List.append_assoc, List.append_assoc, bare_append blank, bare_append blank',
    bare_piece (by decide) some digit, bare_piece (by decide) some' digit'] at same
  obtain ⟨rfl, rfl⟩ := piece_unique (by decide) digit digit' pauses pauses' same
  exact ⟨rfl, rfl⟩

/-- No month has the name of another, long or short. -/
theorem month_unique : ∀ named ∈ monthNames.zipIdx 1, ∀ named' ∈ monthNames.zipIdx 1,
    ∀ long long', monthText long named.1 = monthText long' named'.1 → named.2 = named'.2 := by
  decide +kernel

theorem names_agree {long long' : Bool} (spells : Spells (.monthName long) used n)
    (spells' : Spells (.monthName long') used' n') (pauses : Pauses rest) (pauses' : Pauses rest')
    (same : bare (used ++ rest) = bare (used' ++ rest')) : n = n' ∧ rest = rest' := by
  obtain ⟨some, letter, name, named, lower⟩ := letters_of_spells spells
  obtain ⟨some', letter', name', named', lower'⟩ := letters_of_spells spells'
  rw [bare_piece (by decide) some letter, bare_piece (by decide) some' letter'] at same
  obtain ⟨rfl, rfl⟩ := piece_unique (by decide) letter letter' pauses pauses' same
  exact ⟨month_unique _ named _ named' long long' (lower.symm.trans lower'), rfl⟩

/-- Two texts that are the same up to blanks at the beginning begin with pieces for the same number,
and go on with texts that are the same up to blanks at the beginning. -/
theorem pieces_agree (alike : item.short = item'.short) (apt : item.isApt = true)
    (spells : Spells item used n) (spells' : Spells item' used' n')
    (pauses : item.separates = true ∨ Pauses rest) (pauses' : item'.separates = true ∨ Pauses rest')
    (same : bare (used ++ rest) = bare (used' ++ rest')) :
    put f item n = put f item' n' ∧ bare rest = bare rest' := by
  rcases short_cases alike with rfl | ⟨long, long', rfl, rfl⟩
  · cases item with
    | mark c =>
      have firm (rest : Text) : bare ([c] ++ rest) = c :: rest :=
        bare_piece (k := .mark) (by decide) (List.cons_ne_nil _ _)
          (List.forall_mem_singleton.mpr (of_decide_eq_true apt)) rest
      rw [spells_mark spells, spells_mark spells', firm, firm] at same
      exact ⟨rfl, congrArg bare (List.cons.inj same).2⟩
    | blanks =>
      rw [bare_append (spells_blanks spells).2, bare_append (spells_blanks spells').2] at same
      exact ⟨rfl, same⟩
    | monthName long =>
      obtain ⟨rfl, rfl⟩ := names_agree spells spells' (pauses.resolve_left Bool.false_ne_true)
        (pauses'.resolve_left Bool.false_ne_true) same
      exact ⟨rfl, rfl⟩
    | year | month | day | hour | minute | second =>
      obtain ⟨rfl, rfl⟩ := numbers_agree (by simp [Item.isShortNumber]) spells spells'
        (pauses.resolve_left (by decide)) (pauses'.resolve_left (by decide)) same
      exact ⟨rfl, rfl⟩
  · obtain ⟨rfl, rfl⟩ := names_agree spells spells' (pauses.resolve_left Bool.false_ne_true)
      (pauses'.resolve_left Bool.false_ne_true) same
    exact ⟨rfl, rfl⟩

/-- The piece of an item that separates begins with a blank or a mark. -/
theorem opening_of_separates (separates : item.separates = true) (apt : item.isApt = true)
    (spells : Spells item used n) :
    ∃ c t, used = c :: t ∧ (kind c = .blank ∨ kind c = .mark) := by
  cases item with
  | mark c => exact ⟨c, [], spells_mark spells, .inr (of_decide_eq_true apt)⟩
  | blanks =>
    obtain ⟨some, blank⟩ := spells_blanks spells
    obtain ⟨c, t, rfl⟩ := List.exists_cons_of_ne_nil some
    exact ⟨c, t, rfl, .inl (blank c List.mem_cons_self)⟩
  | _ => cases separates

/-- Behind an item that does not separate, a text that is used up pauses. -/
theorem pauses_of_matches (separated : Form.Separated (item :: form))
    (read : (g, []) ∈ Form.matches f form rest) : item.separates = true ∨ Pauses rest := by
  cases form with
  | nil =>
    obtain ⟨_, rfl⟩ := Prod.mk.inj (List.mem_singleton.mp read)
    exact .inr fun c first => by cases first
  | cons next form =>
    refine (List.isChain_cons_cons.mp separated.apart).1.imp_right fun separates => ?_
    have apt : next.isApt = true := separated.apt next (List.mem_cons_of_mem _ List.mem_cons_self)
    obtain ⟨used, n, rest, rfl, spells, _⟩ := matches_cons read
    obtain ⟨d, t, rfl, opening⟩ := opening_of_separates separates apt spells
    intro c first
    obtain rfl : d = c := Option.some.inj first
    exact opening

theorem Form.Separated.tail (separated : Form.Separated (item :: form)) : Form.Separated form :=
  ⟨separated.apart.tail, fun next listed => separated.apt next (List.mem_cons_of_mem _ listed)⟩

/-- Forms that differ only in the length of the month's name read the same fields from a text that
both use up. -/
theorem fields_unique (separated : Form.Separated form) (separated' : Form.Separated form')
    (alike : form.map Item.short = form'.map Item.short) (same : bare t = bare t')
    (read : (g, []) ∈ Form.matches f form t) (read' : (g', []) ∈ Form.matches f form' t') :
    g = g' := by
  -- readings may part a run of blanks differently, so the texts behind agree only without blanks
  induction form generalizing form' f t t' with
  | nil =>
    obtain rfl : form' = [] := List.map_eq_nil_iff.mp alike.symm
    obtain ⟨rfl, _⟩ := Prod.mk.inj (List.mem_singleton.mp read)
    obtain ⟨rfl, _⟩ := Prod.mk.inj (List.mem_singleton.mp read')
    rfl
  | cons item form ih =>
    obtain ⟨item', form', rfl⟩ := List.exists_cons_of_ne_nil (l := form') (by rintro rfl; cases alike)
    obtain ⟨here, others⟩ := List.cons.inj alike
    obtain ⟨used, n, rest, rfl, spells, later⟩ := matches_cons read
    obtain ⟨used', n', rest', rfl, spells', later'⟩ := matches_cons read'
    obtain ⟨fields, level⟩ := pieces_agree (f := f) here (separated.apt item List.mem_cons_self)
      spells spells' (pauses_of_matches separated later) (pauses_of_matches separated' later') same
    exact ih separated.tail separated'.tail others level later (fields ▸ later')

end GuardedConsole.Time.Written
