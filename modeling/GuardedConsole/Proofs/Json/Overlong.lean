import GuardedConsole.Proofs.Json.Grammar
import GuardedConsole.Proofs.Json.Integers

/-!
# Integers with too many digits in a document

Reading a text from its beginning may come to an integer that has too many digits, before anything that
is malformed. `Meets` says where that is, by the documents that stand before the integer, and
`read_eq_tooManyDigits_iff` that this is the only way in which a text is refused for its digits.
-/

namespace GuardedConsole.Json

open Text

variable {c : CodePoint} {t u rest : Text} {known : List (Text × Json)} {fuel n : Nat}

/-- What is read at some place of a text: a value, the items of a list or the members of a record. -/
inductive Place where
  | value
  | items
  | members

/-- From this place on, reading comes to an integer of `n` digits, which are too many. -/
inductive Meets : Place → Text → Nat → Prop where
  | integer {t : Text} {n : Nat} : BeginsOverlong t n → Meets .value t n
  | space {place : Place} {c : CodePoint} {t : Text} {n : Nat} : isSpace c = true →
    Meets place t n → Meets place (c :: t) n
  | list {t : Text} {n : Nat} : Meets .items t n → Meets .value (.char '[' :: t) n
  | item {t : Text} {n : Nat} : Meets .value t n → Meets .items t n
  | nextItem {p t : Text} {j : Json} {n : Nat} : Stands p j → Meets .items t n →
    Meets .items (p ++ .char ',' :: t) n
  | record {t : Text} {n : Nat} : Meets .members t n → Meets .value (.char '\x7b' :: t) n
  | member {body name between t : Text} {n : Nat} : Denotes body name →
    (∀ c ∈ between, isSpace c = true) → Meets .value t n →
      Meets .members (.char '"' :: (body ++ .char '"' :: (between ++ .char ':' :: t))) n
  | nextMember {m : MemberText} {t : Text} {n : Nat} : Stands m.text m.value → Meets .members t n →
    Meets .members (m.written ++ .char ',' :: t) n

theorem Meets.pad {place : Place} (meets : Meets place t n) (spaces : ∀ c ∈ u, isSpace c = true) :
    Meets place (u ++ t) n := by
  induction u with
  | nil => exact meets
  | cons c u ih =>
    obtain ⟨first, others⟩ := List.forall_mem_cons.mp spaces
    exact .space first (ih others)

theorem Meets.of_skipSpace {place : Place} (meets : Meets place (skipSpace t) n) :
    Meets place t n := by
  obtain ⟨spaces, split, blank⟩ := skipSpace_split t
  rw [split]
  exact meets.pad blank

/-! ### What is refused meets an integer -/

/-- Where the readers refuse a text for its digits, they come to such an integer. -/
structure ReadersMeet (fuel : Nat) : Prop where
  value : ∀ {t n}, readValue fuel t = .error (.tooManyDigits n) → Meets .value t n
  items : ∀ {t n}, readItems fuel t = .error (.tooManyDigits n) → Meets .items t n
  members : ∀ {known t n}, readMembers fuel known t = .error (.tooManyDigits n) →
    Meets .members t n

theorem readString_ne_tooManyDigits : readString t ≠ .error (.tooManyDigits n) := by
  unfold readString
  split <;> exact nofun

theorem ReadersMeet.readValue (meet : ReadersMeet fuel)
    (refused : readValue (fuel + 1) t = .error (.tooManyDigits n)) : Meets .value t n := by
  rw [Json.readValue.eq_def] at refused
  dsimp only at refused
  split at refused
  · split at refused
    · cases refused
    · rename_i string
      cases refused
      exact (readString_ne_tooManyDigits string).elim
  · split at refused
    · cases refused
    · split at refused
      · cases refused
      · rename_i items
        cases refused
        exact .list (meet.items items).of_skipSpace
  · split at refused
    · cases refused
    · split at refused
      · cases refused
      · rename_i members
        cases refused
        exact .record (meet.members members).of_skipSpace
  · exact .integer (readAtom_eq_tooManyDigits_iff.mp refused)

theorem ReadersMeet.readItems (meet : ReadersMeet fuel)
    (refused : readItems (fuel + 1) t = .error (.tooManyDigits n)) : Meets .items t n := by
  rw [Json.readItems.eq_def] at refused
  dsimp only at refused
  split at refused
  · rename_i first
    cases refused
    exact .item (meet.value first)
  · rename_i item after first
    obtain ⟨p, rfl, stands⟩ := (readersStand fuel).value first
    obtain ⟨spaces, split, blank⟩ := skipSpace_split after
    split at refused
    · cases refused
    · rename_i next comma
      split at refused
      · cases refused
      · rename_i others
        cases refused
        rw [split, comma, ← List.append_assoc]
        exact .nextItem (stands.pad_right blank) (meet.items others).of_skipSpace
    · cases refused

theorem ReadersMeet.readMembers (meet : ReadersMeet fuel)
    (refused : readMembers (fuel + 1) known t = .error (.tooManyDigits n)) : Meets .members t n := by
  rw [Json.readMembers.eq_def] at refused
  dsimp only at refused
  split at refused
  · split at refused
    · rename_i string
      cases refused
      exact (readString_ne_tooManyDigits string).elim
    · rename_i name behind string
      obtain ⟨body, rfl, denotes⟩ := readContent_iff.mp (readString_eq_ok string)
      split at refused
      · rename_i inner colon
        split at refused
        · rename_i value
          cases refused
          obtain ⟨between, split, blank⟩ := skipSpace_split behind
          rw [split, colon]
          exact .member denotes blank (meet.value value).of_skipSpace
        · rename_i value after found
          obtain ⟨p, whole, stands⟩ := (readersStand fuel).value found
          obtain ⟨first, here, _, written⟩ := exists_memberText denotes colon whole stands
          split at refused
          · cases refused
          · rename_i next comma
            rw [written, comma]
            exact .nextMember here (meet.members refused).of_skipSpace
          · cases refused
      · cases refused
  · cases refused

theorem readersMeet (fuel : Nat) : ReadersMeet fuel := by
  induction fuel with
  | zero => exact ⟨nofun, nofun, nofun⟩
  | succ fuel meet => exact ⟨meet.readValue, meet.readItems, meet.readMembers⟩

/-! ### What meets an integer is refused -/

/-- With enough fuel the reader of the place refuses the text for its digits. -/
def Refused : Place → Text → Nat → Prop
  | .value, t, n => ∀ fuel, 2 * t.length ≤ fuel →
    readValue fuel (skipSpace t) = .error (.tooManyDigits n)
  | .items, t, n => ∀ fuel, 2 * t.length < fuel →
    readItems fuel (skipSpace t) = .error (.tooManyDigits n)
  | .members, t, n => ∀ fuel known, 2 * t.length < fuel →
    readMembers fuel known (skipSpace t) = .error (.tooManyDigits n)

theorem BeginsOverlong.exists_atomic (begins : BeginsOverlong t n) :
    ∃ c rest, t = c :: rest ∧ isAtomic c = true := by
  cases begins with
  | @intro negative digits rest whole _ _ =>
    obtain ⟨d, ds, rfl⟩ := List.exists_cons_of_ne_nil whole.filled
    cases negative with
    | true => exact ⟨'-', _, rfl, rfl⟩
    | false => exact ⟨d, _, rfl, isAtomic_of_digit (whole.all d List.mem_cons_self)⟩

theorem Refused.space {place : Place} (refused : Refused place t n) (blank : isSpace c = true) :
    Refused place (c :: t) n := by
  have skipped : skipSpace (c :: t) = skipSpace t := List.dropWhile_cons_of_pos blank
  cases place with
  | value =>
    intro fuel enough
    rw [skipped]
    exact refused fuel (by rw [List.length_cons] at enough; omega)
  | items =>
    intro fuel enough
    rw [skipped]
    exact refused fuel (by rw [List.length_cons] at enough; omega)
  | members =>
    intro fuel known enough
    rw [skipped]
    exact refused fuel known (by rw [List.length_cons] at enough; omega)

theorem Refused.list (refused : Refused .items t n) : Refused .value (.char '[' :: t) n := by
  intro fuel enough
  rw [List.length_cons] at enough
  obtain ⟨fuel, rfl⟩ := Nat.exists_eq_succ_of_ne_zero (show fuel ≠ 0 by omega)
  have items := refused fuel (by omega)
  rw [skipSpace_cons rfl, readValue]
  split
  · rename_i closed
    rw [closed] at items
    rcases fuel with _ | _ | fuel <;> cases items
  · rw [items]

theorem Refused.record (refused : Refused .members t n) :
    Refused .value (.char '\x7b' :: t) n := by
  intro fuel enough
  rw [List.length_cons] at enough
  obtain ⟨fuel, rfl⟩ := Nat.exists_eq_succ_of_ne_zero (show fuel ≠ 0 by omega)
  have members := refused fuel [] (by omega)
  rw [skipSpace_cons rfl, readValue]
  split
  · rename_i closed
    rw [closed] at members
    cases fuel <;> cases members
  · rw [members]

theorem Refused.nextItem {p : Text} {j : Json} (stands : Stands p j) (refused : Refused .items t n) :
    Refused .items (p ++ .char ',' :: t) n := by
  intro fuel enough
  rw [List.length_append, List.length_cons] at enough
  obtain ⟨fuel, rfl⟩ := Nat.exists_eq_succ_of_ne_zero (show fuel ≠ 0 by omega)
  have stops : Stops (.char ',' :: t) := rfl
  obtain ⟨after, read, same⟩ := stands.complete fuel (.char ',' :: t) (by omega) stops
  rw [skipSpace_cons rfl] at same
  rw [readItems, read]
  simp only [same, refused fuel (by omega)]

theorem Refused.member {body name between : Text} (denotes : Denotes body name)
    (blank : ∀ c ∈ between, isSpace c = true) (refused : Refused .value t n) :
    Refused .members (.char '"' :: (body ++ .char '"' :: (between ++ .char ':' :: t))) n := by
  intro fuel known enough
  simp only [List.length_cons, List.length_append] at enough
  obtain ⟨fuel, rfl⟩ := Nat.exists_eq_succ_of_ne_zero (show fuel ≠ 0 by omega)
  rw [skipSpace_cons rfl, readMembers, readString_of_denotes denotes]
  dsimp only
  rw [skipSpace_append blank, skipSpace_cons rfl]
  simp only [refused fuel (by omega)]

theorem Refused.nextMember {m : MemberText} (stands : Stands m.text m.value)
    (refused : Refused .members t n) : Refused .members (m.written ++ .char ',' :: t) n := by
  intro fuel known enough
  have short : m.text.length ≤ m.written.length := by
    simp [MemberText.written]
    omega
  rw [List.length_append, List.length_cons] at enough
  obtain ⟨fuel, rfl⟩ := Nat.exists_eq_succ_of_ne_zero (show fuel ≠ 0 by omega)
  have stops : Stops (.char ',' :: t) := rfl
  rw [readMembers_written stands.complete known (by omega) stops, skipSpace_cons rfl]
  exact refused fuel _ (by omega)

theorem Meets.refused {place : Place} (meets : Meets place t n) : Refused place t n := by
  induction meets with
  | integer begins =>
    intro fuel enough
    obtain ⟨c, rest, rfl, atomic⟩ := begins.exists_atomic
    rw [List.length_cons] at enough
    obtain ⟨fuel, rfl⟩ := Nat.exists_eq_succ_of_ne_zero (show fuel ≠ 0 by omega)
    rw [skipSpace_cons (isSpace_of_atomic atomic), readValue_atom atomic]
    exact readAtom_eq_tooManyDigits_iff.mpr begins
  | space blank _ ih => exact ih.space blank
  | list _ ih => exact ih.list
  | item _ ih =>
    intro fuel enough
    obtain ⟨fuel, rfl⟩ := Nat.exists_eq_succ_of_ne_zero (show fuel ≠ 0 by omega)
    rw [readItems, ih fuel (by omega)]
  | nextItem stands _ ih => exact ih.nextItem stands
  | record _ ih => exact ih.record
  | member denotes blank _ ih => exact ih.member denotes blank
  | nextMember stands _ ih => exact ih.nextMember stands

/-- A text is refused for its digits exactly if reading it comes to an integer with too many. -/
theorem read_eq_tooManyDigits_iff : read t = .error (.tooManyDigits n) ↔ Meets .value t n := by
  constructor
  · intro refused
    unfold read at refused
    split at refused
    · rename_i value
      cases refused
      exact ((readersMeet _).value value).of_skipSpace
    · split at refused <;> cases refused
  · intro meets
    have refused : readValue (2 * t.length + 2) (skipSpace t) = .error (.tooManyDigits n) :=
      meets.refused _ (by omega)
    rw [read, refused]

end GuardedConsole.Json
