import GuardedConsole.Proofs.Time.Written
import GuardedConsole.Time.Literal

/-!
# No date has two readings

A text that two of the written forms use up has the same slashes, colons and commas in both and opens
in the same way, so the forms differ at most in the length of the month's name; and no text that is
read in ISO form opens like a written date. `date_text_has_one_reading` concludes that it does not
matter in which order the forms are tried.
-/

namespace GuardedConsole.Time

open Text

/-! ### How written dates open -/

namespace Written

variable {c : CodePoint} {t last : Text} {item next : Item} {form form' : Form} {f g g' : Fields}
  {long : Bool} {m m' : Moment}

/-- Does the text open with three digits? -/
def opensWithDigits (t : Text) : Bool :=
  (t.take 3).all fun c => kind c = .digit

/-- Does the text open with a letter? -/
def opensWithLetter (t : Text) : Bool :=
  t.head?.any fun c => kind c = .letter

theorem opening_year (read : (g, last) ∈ Form.matches f (.year :: .mark c :: form) t) :
    opensWithDigits t = true ∧ opensWithLetter t = false ∧ t[4]? = some c := by
  obtain ⟨used, n, rest, rfl, spells, later⟩ := matches_cons read
  obtain ⟨slash, _, rest, rfl, mark, _⟩ := matches_cons later
  obtain rfl := spells_mark mark
  cases spells with
  | year length digits =>
    obtain ⟨a, b, d, e, rfl⟩ := List.length_eq_four.mp length
    simp only [List.forall_mem_cons] at digits
    simp [opensWithDigits, opensWithLetter, digits]
  | number short => cases short

theorem opening_number (short : item.isShortNumber = true) (separates : next.separates = true)
    (apt : next.isApt = true) (read : (g, last) ∈ Form.matches f (item :: next :: form) t) :
    opensWithDigits t = false ∧ opensWithLetter t = false := by
  obtain ⟨used, n, rest, rfl, spells, later⟩ := matches_cons read
  obtain ⟨piece, _, rest, rfl, separator, _⟩ := matches_cons later
  obtain ⟨d, piece, rfl, opening⟩ := opening_of_separates separates apt separator
  have noDigit : kind d ≠ .digit := by rcases opening with blank | mark <;> simp [*]
  obtain ⟨fill, digits, rfl, blank, some, digit, _⟩ := digits_of_spells (.inl short) spells
  have few : (fill ++ digits).length ≤ 2 := length_of_spells short spells
  have noLetter : ∀ c ∈ fill ++ digits, kind c ≠ .letter := by
    intro c member
    rcases List.mem_append.mp member with inFill | inDigits
    · simp [blank c inFill]
    · simp [digit c inDigits]
  have nonempty : fill ++ digits ≠ [] := by simp [some]
  generalize fill ++ digits = used at few noLetter nonempty ⊢
  match used, few, nonempty with
  | [a], _, _ => simp_all [opensWithDigits, opensWithLetter]
  | [a, b], _, _ => simp_all [opensWithDigits, opensWithLetter]

theorem opening_name (read : (g, last) ∈ Form.matches f (.monthName long :: form) t) :
    opensWithDigits t = false ∧ opensWithLetter t = true := by
  obtain ⟨used, n, rest, rfl, spells, _⟩ := matches_cons read
  obtain ⟨some, letters, _⟩ := letters_of_spells spells
  obtain ⟨c, used, rfl⟩ := List.exists_cons_of_ne_nil some
  have letter := letters c List.mem_cons_self
  simp [opensWithDigits, opensWithLetter, letter]

/-- Every form opens with a year and a slash, with a short number and what separates it, or with a
name. -/
theorem forms_open : ∀ form ∈ forms, form.take 2 = [.year, .mark '/'] ∨
    (∃ item ∈ [Item.month, .day], ∃ next ∈ [Item.blanks, .mark '/'], form.take 2 = [item, next]) ∨
    ∃ long, form.take 1 = [.monthName long] := by
  decide +kernel

/-- The opening of a text tells whether a form that uses it up begins with the year, and whether it
begins with the name of a month. -/
theorem opening_of_read (listed : form ∈ forms) (read : (g, last) ∈ Form.matches f form t) :
    (opensWithDigits t = true ↔ form.head? = some .year) ∧
      (opensWithLetter t = true ↔ form.head?.map Item.short = some (.monthName false)) ∧
      (form.head? = some .year → t[4]? = some (.char '/')) := by
  rcases forms_open form listed with year | ⟨item, first, next, second, number⟩ | ⟨long, name⟩
  · rw [← List.take_append_drop 2 form, year] at read ⊢
    obtain ⟨digits, letter, slash⟩ := opening_year read
    simp [digits, letter, slash, Item.short]
  · rw [← List.take_append_drop 2 form, number] at read ⊢
    have short : item.isShortNumber = true := by
      fin_cases first <;> rfl
    have separates : next.separates = true ∧ next.isApt = true := by
      fin_cases second <;> decide +kernel
    obtain ⟨digits, letter⟩ := opening_number short separates.1 separates.2 read
    fin_cases first <;> simp [digits, letter, Item.short]
  · rw [← List.take_append_drop 1 form, name] at read ⊢
    obtain ⟨digits, letter⟩ := opening_name read
    simp [digits, letter, Item.short]

/-! ### Telling the forms apart -/

theorem forms_separated : ∀ form ∈ forms, form.Separated := by
  have each : ∀ form ∈ forms, form.IsChain (fun a b => a.separates = true ∨ b.separates = true) ∧
      ∀ item ∈ form, item.isApt = true := by
    decide +kernel
  exact fun form listed => ⟨(each form listed).1, (each form listed).2⟩

/-- Forms with the same numbers of slashes, colons and commas that open alike differ at most in the
length of the month's name. -/
theorem forms_told_apart : ∀ form ∈ forms, ∀ form' ∈ forms,
    (∀ x ∈ "/:,".toText, form.count (.mark x) = form'.count (.mark x)) →
      (form.head? = some .year ↔ form'.head? = some .year) →
      (form.head?.map Item.short = some (.monthName false) ↔
        form'.head?.map Item.short = some (.monthName false)) →
      form.map Item.short = form'.map Item.short := by
  decide +kernel

theorem alike_of_matches (listed : form ∈ forms) (listed' : form' ∈ forms)
    (read : (g, []) ∈ Form.matches f form t) (read' : (g', []) ∈ Form.matches f form' t) :
    form.map Item.short = form'.map Item.short := by
  obtain ⟨year, name, _⟩ := opening_of_read listed read
  obtain ⟨year', name', _⟩ := opening_of_read listed' read'
  refine forms_told_apart form listed form' listed' ?_ (year.symm.trans year')
    (name.symm.trans name')
  intro x member
  have marked : ∀ x ∈ "/:,".toText, kind x = .mark := by decide +kernel
  have count := count_of_matches (marked x member) read
  rw [count_of_matches (marked x member) read'] at count
  exact count.symm

/-- A text that a form accepts is used up by a reading, whose fields make the moment. -/
theorem matches_of_read? (read : form.read? t = some m) :
    ∃ g, (g, []) ∈ Form.matches { year := 0 } form t ∧ (Moment.ofFields g none).toOption = some m := by
  unfold Form.read? at read
  split at read
  · rename_i g others found
    exact ⟨g, found ▸ List.mem_cons_self, read⟩
  · cases read

/-- Two forms that accept a text give the same moment. -/
theorem read?_unique (listed : form ∈ forms) (listed' : form' ∈ forms)
    (read : form.read? t = some m) (read' : form'.read? t = some m') : m = m' := by
  obtain ⟨g, used, made⟩ := matches_of_read? read
  obtain ⟨g', used', made'⟩ := matches_of_read? read'
  obtain rfl := fields_unique (forms_separated form listed) (forms_separated form' listed')
    (alike_of_matches listed listed' used used') rfl used used'
  exact Option.some.inj (made.symm.trans made')

end Written

/-! ### ISO texts -/

namespace Iso

variable {t rest : Text} {m : Moment}

theorem digits_split {count n value : Nat} (read : digits count n t = some (value, rest)) :
    ∃ used, t = used ++ rest ∧ used.length = count ∧ ∀ c ∈ used, isAsciiDigit c = true := by
  induction count generalizing n t with
  | zero =>
    cases read
    exact ⟨[], rfl, rfl, List.forall_mem_nil _⟩
  | succ count ih =>
    cases t with
    | nil => cases read
    | cons c t =>
      rw [digits] at read
      split at read
      · rename_i digit
        obtain ⟨used, rfl, length, all⟩ := ih read
        exact ⟨c :: used, rfl, congrArg Nat.succ length, List.forall_mem_cons.mpr ⟨digit, all⟩⟩
      · cases read

/-- A date opens with four digits, and no slash follows. -/
theorem opening_of_readDate {date : Civil} (dated : readDate t = some date) :
    ∃ (used : Text) (c : CodePoint) (rest : Text), t = used ++ c :: rest ∧ used.length = 4 ∧
      (∀ d ∈ used, isAsciiDigit d = true) ∧ c ≠ '/' := by
  obtain ⟨⟨year, rest⟩, four, behind⟩ := Option.bind_eq_some_iff.mp dated
  obtain ⟨used, rfl, length, all⟩ := digits_split four
  cases rest with
  | nil =>
    have stuck : digits 2 0 [] = none := rfl
    simp [peek, stuck] at behind
  | cons c rest =>
    refine ⟨used, c, rest, rfl, length, all, ?_⟩
    rintro rfl
    have stuck : digits 2 0 (.char '/' :: rest) = none := rfl
    simp [peek, stuck] at behind

theorem opening_of_read (moment : read t = .ok m) :
    ∃ (used : Text) (c : CodePoint) (rest : Text), t = used ++ c :: rest ∧ used.length = 4 ∧
      (∀ d ∈ used, isAsciiDigit d = true) ∧ c ≠ '/' := by
  unfold read at moment
  split at moment
  · cases moment
  · dsimp only at moment
    split at moment
    · cases moment
    · rename_i date dated
      obtain ⟨used, c, rest, same, opening⟩ := opening_of_readDate dated
      refine ⟨used, c, rest ++ t.drop (dateLength t), ?_, opening⟩
      rw [← List.cons_append, ← List.append_assoc, ← same, List.take_append_drop]

end Iso

namespace Written

variable {t : Text} {form : Form} {m : Moment}

/-- No form accepts a text that is read in ISO form: only the year opens with that many digits, and a
slash follows it. -/
theorem read?_of_iso (listed : form ∈ forms) (iso : Iso.read t = .ok m) : form.read? t = none := by
  refine Option.eq_none_iff_forall_ne_some.mpr fun m' accepted => ?_
  obtain ⟨g, used, _⟩ := matches_of_read? accepted
  obtain ⟨year, _, slash⟩ := opening_of_read listed used
  obtain ⟨digits, c, rest, rfl, length, all, other⟩ := Iso.opening_of_read iso
  obtain ⟨a, b, d, e, rfl⟩ := List.length_eq_four.mp length
  have opens : opensWithDigits ([a, b, d, e] ++ c :: rest) = true := by
    have kinds : ∀ c ∈ [a, b, d, e], kind c = .digit := fun c member =>
      kind_eq_digit_iff.mpr (by rw [digitValue?, if_pos (all c member)]; rfl)
    simp only [List.forall_mem_cons] at kinds
    simp [opensWithDigits, kinds]
  exact other (Option.some.inj (slash (year.mp opens)))

/-- No form accepts a text that ends in a `Z`. -/
theorem expandZulu_of_read? (listed : form ∈ forms) (accepted : form.read? t = some m) :
    Literal.expandZulu t = t := by
  obtain ⟨g, used, _⟩ := matches_of_read? accepted
  have without : ∀ form ∈ forms, form.count (.mark 'Z') = 0 := by decide +kernel
  have count := count_of_matches (x := 'Z') (by decide +kernel) used
  rw [without form listed] at count
  refine if_neg fun ends => ?_
  exact List.count_eq_zero.mp count (List.mem_of_getLast? ends)

end Written

/-- If all that give something give the same, the first of them gives it. -/
theorem findSome?_eq_some_iff_of_agree {α β : Type} {f : α → Option β} {l : List α} {x : β}
    (agree : ∀ a ∈ l, ∀ b ∈ l, ∀ x y, f a = some x → f b = some y → x = y) :
    l.findSome? f = some x ↔ ∃ a ∈ l, f a = some x := by
  constructor
  · exact List.exists_of_findSome?_eq_some
  · rintro ⟨a, listed, gives⟩
    cases found : l.findSome? f with
    | none =>
      rw [List.findSome?_eq_none_iff.mp found a listed] at gives
      cases gives
    | some y =>
      obtain ⟨b, listed', gives'⟩ := List.exists_of_findSome?_eq_some found
      rw [agree b listed' a listed y x gives' gives]

namespace Literal

open Written

/-- No date has two readings. All written forms that accept a text give the same moment; none accepts
a text that is read in ISO form, as it stands or with its `Z` expanded; trying the forms in another
order gives the same; and what is read from a text is what any of the readers gives for it without
the blanks around it. -/
theorem date_text_has_one_reading (t : Text) :
    (∀ form ∈ forms, ∀ form' ∈ forms, ∀ m m',
      form.read? t = some m → form'.read? t = some m' → m = m') ∧
    (∀ m, Iso.read t = .ok m ∨ Iso.read (expandZulu t) = .ok m →
      ∀ form ∈ forms, form.read? t = none) ∧
    (∀ order : List Form, order.Perm forms →
      order.findSome? (fun form => form.read? t) = Written.read? t) ∧
    ∀ m, readText t = .ok m ↔
      Iso.read (expandZulu t.trim) = .ok m ∨ ∃ form ∈ forms, form.read? t.trim = some m := by
  have agree (t : Text) : ∀ form ∈ forms, ∀ form' ∈ forms, ∀ m m',
      form.read? t = some m → form'.read? t = some m' → m = m' :=
    fun form listed form' listed' m m' => read?_unique listed listed'
  have apart {t : Text} {m : Moment} (iso : Iso.read (expandZulu t) = .ok m) :
      ∀ form ∈ forms, form.read? t = none := by
    refine fun form listed => Option.eq_none_iff_forall_ne_some.mpr fun m' accepted => ?_
    rw [expandZulu_of_read? listed accepted] at iso
    rw [read?_of_iso listed iso] at accepted
    cases accepted
  refine ⟨agree t, ?_, ?_, ?_⟩
  · rintro m (iso | iso)
    · exact fun form listed => read?_of_iso listed iso
    · exact apart iso
  · intro order perm
    have agree' : ∀ form ∈ order, ∀ form' ∈ order, ∀ m m',
        form.read? t = some m → form'.read? t = some m' → m = m' :=
      fun form listed form' listed' =>
        agree t form (perm.mem_iff.mp listed) form' (perm.mem_iff.mp listed')
    refine Option.ext fun m => ?_
    rw [Written.read?, findSome?_eq_some_iff_of_agree agree',
      findSome?_eq_some_iff_of_agree (agree t)]
    simp only [perm.mem_iff]
  · intro m
    -- a form reads only what the ISO reader refuses, so it does not matter that this one is first
    rw [← findSome?_eq_some_iff_of_agree (agree t.trim)]
    change _ ↔ _ ∨ Written.read? t.trim = some m
    unfold readText
    cases iso : Iso.read (expandZulu t.trim) with
    | ok m' =>
      have none : Written.read? t.trim = none := List.findSome?_eq_none_iff.mpr (apart iso)
      simp [none]
    | error e => cases Written.read? t.trim <;> simp

/-- The month, the day, a comma, the year, the hour and the minute. -/
def monthFirst (long : Bool) : Form :=
  [.monthName long, .blanks, .day, .mark ',', .blanks, .year, .blanks, .hour, .mark ':', .minute]

/-- A date in a month whose name is no longer than its abbreviation. -/
def mayFifth : Text :=
  " May 5, 2024 9:30\n".toText

/-- Two forms accept the date, and give the moment that is read from it. -/
theorem mayFifth_has_one_reading :
    ∃ m, readText mayFifth = .ok m ∧ ∀ long, (monthFirst long).read? mayFifth.trim = some m := by
  have listed : ∀ long, monthFirst long ∈ forms := by decide +kernel
  have accepted : ∀ long, ((monthFirst long).read? mayFifth.trim).isSome = true := by
    decide +kernel
  obtain ⟨m, short⟩ := Option.isSome_iff_exists.mp (accepted false)
  obtain ⟨m', long⟩ := Option.isSome_iff_exists.mp (accepted true)
  obtain rfl := (date_text_has_one_reading mayFifth.trim).1 _ (listed false) _ (listed true) m m'
    short long
  refine ⟨m, ?_, Bool.forall_bool.mpr ⟨short, long⟩⟩
  exact ((date_text_has_one_reading mayFifth).2.2.2 m).mpr (.inr ⟨_, listed false, short⟩)

end Literal

end GuardedConsole.Time
