import GuardedConsole.Proofs.Json.Atoms
import GuardedConsole.Proofs.Json.Quotes
import GuardedConsole.Proofs.Json.Strings
import GuardedConsole.Proofs.Text.Joining
import GuardedConsole.Proofs.Value.Tables

/-!
# JSON as a grammar

`Stands` says which document a text stands for, with spaces around it or without, by the parts of the
text alone. Reading agrees with it (`read_eq_ok_iff`): what is read is made up of parts that stand for
the parts of the document (`ReadersStand`), and such a text is read before any other that does not
continue it, with any fuel that is not less than its length (`Stands.complete`).
-/

namespace GuardedConsole.Json

open Text

variable {c : CodePoint} {t u rest all : Text} {fuel : Nat} {j : Json}

/-- A member of a record as it is written, without spaces at its end. -/
structure MemberText where
  before : Text
  body : Text
  between : Text
  text : Text
  name : Text
  value : Json
  spaces : ∀ c ∈ before ++ between, isSpace c = true
  spelled : Denotes body name

namespace MemberText

def written (m : MemberText) : Text :=
  m.before ++ .char '"' :: (m.body ++ .char '"' :: (m.between ++ .char ':' :: m.text))

def entry (m : MemberText) : Text × Json :=
  (m.name, m.value)

/-- The member with more spaces before it. -/
def padded (m : MemberText) (spaces : Text) (blank : ∀ c ∈ spaces, isSpace c = true) : MemberText where
  before := spaces ++ m.before
  body := m.body
  between := m.between
  text := m.text
  name := m.name
  value := m.value
  spaces := by
    intro c member
    rw [List.append_assoc] at member
    exact (List.mem_append.mp member).elim (blank c) (m.spaces c)
  spelled := m.spelled

theorem written_padded (m : MemberText) (spaces : Text) (blank : ∀ c ∈ spaces, isSpace c = true) :
    (m.padded spaces blank).written = spaces ++ m.written :=
  List.append_assoc ..

end MemberText

/-- The text stands for the document. -/
inductive Stands : Text → Json → Prop where
  | atom {t : Text} {j : Json} : readAtom t = .ok (j, []) → Stands t j
  | text {body s : Text} : Denotes body s → Stands (.char '"' :: (body ++ [.char '"'])) (.text s)
  | noItems {t : Text} : (∀ c ∈ t, isSpace c = true) →
    Stands (.char '[' :: (t ++ [.char ']'])) (.list [])
  | list {parts : List (Text × Json)} : parts ≠ [] →
    (∀ part ∈ parts, Stands part.1 part.2) →
      Stands (.char '[' :: (joinWith [.char ','] (parts.map Prod.fst) ++ [.char ']']))
        (.list (parts.map Prod.snd))
  | noMembers {t : Text} : (∀ c ∈ t, isSpace c = true) →
    Stands (.char '\x7b' :: (t ++ [.char '\x7d'])) (.record [])
  | record {members : List MemberText} : members ≠ [] →
    (∀ m ∈ members, Stands m.text m.value) →
      Stands
        (.char '\x7b' :: (joinWith [.char ','] (members.map MemberText.written) ++ [.char '\x7d']))
        (.record (Table.ofList (members.map MemberText.entry)))
  | spaceBefore {c : CodePoint} {t : Text} {j : Json} : isSpace c = true → Stands t j →
    Stands (c :: t) j
  | spaceAfter {c : CodePoint} {t : Text} {j : Json} : isSpace c = true → Stands t j →
    Stands (t ++ [c]) j

/-! ### Spaces -/

theorem Stands.pad_left (stands : Stands t j) (spaces : ∀ c ∈ u, isSpace c = true) :
    Stands (u ++ t) j := by
  induction u with
  | nil => exact stands
  | cons c u ih =>
    obtain ⟨first, others⟩ := List.forall_mem_cons.mp spaces
    exact .spaceBefore first (ih others)

theorem Stands.pad_right (stands : Stands t j) (spaces : ∀ c ∈ u, isSpace c = true) :
    Stands (t ++ u) j := by
  induction u generalizing t with
  | nil => rwa [List.append_nil]
  | cons c u ih =>
    obtain ⟨first, others⟩ := List.forall_mem_cons.mp spaces
    rw [List.append_cons]
    exact ih (.spaceAfter first stands) others

theorem skipSpace_split (t : Text) : ∃ u, t = u ++ skipSpace t ∧ ∀ c ∈ u, isSpace c = true :=
  ⟨t.takeWhile isSpace, List.takeWhile_append_dropWhile.symm,
    fun c member => List.all_eq_true.mp List.all_takeWhile c member⟩

theorem skipSpace_append (spaces : ∀ c ∈ u, isSpace c = true) (t : Text) :
    skipSpace (u ++ t) = skipSpace t :=
  List.dropWhile_append_of_pos spaces

theorem skipSpace_cons (other : isSpace c = false) (t : Text) : skipSpace (c :: t) = c :: t :=
  List.dropWhile_cons_of_neg (by rw [other]; decide)

theorem joinWith_append_head (separator a : Text) (parts : List Text) :
    joinWith separator ((u ++ a) :: parts) = u ++ joinWith separator (a :: parts) := by
  cases parts with
  | nil => rfl
  | cons b parts => simp [joinWith_cons_cons]

theorem joinWith_padded (m : MemberText) (members : List MemberText)
    (blank : ∀ c ∈ u, isSpace c = true) :
    joinWith [.char ','] ((m.padded u blank :: members).map MemberText.written) =
      u ++ joinWith [.char ','] ((m :: members).map MemberText.written) := by
  rw [List.map_cons, m.written_padded, joinWith_append_head, List.map_cons]

/-! ### What is read stands for the document -/

/-- The readers leave what follows texts that stand for what they give. -/
structure ReadersStand (fuel : Nat) : Prop where
  value : ∀ {t j rest}, readValue fuel t = .ok (j, rest) → ∃ p, t = p ++ rest ∧ Stands p j
  items : ∀ {t all rest}, readItems fuel t = .ok (all, rest) →
    ∃ parts : List (Text × Json), parts ≠ [] ∧ (∀ part ∈ parts, Stands part.1 part.2) ∧
      t = joinWith [.char ','] (parts.map Prod.fst) ++ .char ']' :: rest ∧ all = parts.map Prod.snd
  members : ∀ {t known all rest}, readMembers fuel known t = .ok (all, rest) →
    ∃ members : List MemberText, members ≠ [] ∧ (∀ m ∈ members, Stands m.text m.value) ∧
      t = joinWith [.char ','] (members.map MemberText.written) ++ .char '\x7d' :: rest ∧
      all = Table.putAll known (members.map MemberText.entry)

theorem Stands.list_padded {parts : List (Text × Json)} (filled : parts ≠ [])
    (each : ∀ part ∈ parts, Stands part.1 part.2) (blank : ∀ c ∈ u, isSpace c = true) :
    Stands (.char '[' :: (u ++ joinWith [.char ','] (parts.map Prod.fst) ++ [.char ']']))
      (.list (parts.map Prod.snd)) := by
  obtain ⟨first, others, rfl⟩ := List.exists_cons_of_ne_nil filled
  obtain ⟨here, later⟩ := List.forall_mem_cons.mp each
  have padded : ∀ part ∈ (u ++ first.1, first.2) :: others, Stands part.1 part.2 :=
    List.forall_mem_cons.mpr ⟨here.pad_left blank, later⟩
  have stands := Stands.list (List.cons_ne_nil _ _) padded
  rwa [List.map_cons, joinWith_append_head] at stands

theorem Stands.record_padded {members : List MemberText} (filled : members ≠ [])
    (each : ∀ m ∈ members, Stands m.text m.value) (blank : ∀ c ∈ u, isSpace c = true) :
    Stands
      (.char '\x7b' :: (u ++ joinWith [.char ','] (members.map MemberText.written) ++ [.char '\x7d']))
      (.record (Table.ofList (members.map MemberText.entry))) := by
  obtain ⟨first, others, rfl⟩ := List.exists_cons_of_ne_nil filled
  obtain ⟨here, later⟩ := List.forall_mem_cons.mp each
  have padded : ∀ m ∈ first.padded u blank :: others, Stands m.text m.value :=
    List.forall_mem_cons.mpr ⟨here, later⟩
  have stands := Stands.record (List.cons_ne_nil _ _) padded
  rwa [joinWith_padded] at stands

theorem ReadersStand.readValue (stand : ReadersStand fuel)
    (read : readValue (fuel + 1) t = .ok (j, rest)) : ∃ p, t = p ++ rest ∧ Stands p j := by
  rw [Json.readValue.eq_def] at read
  dsimp only at read
  split at read
  · split at read
    · rename_i string
      cases read
      obtain ⟨body, rfl, denotes⟩ := readContent_iff.mp (readString_eq_ok string)
      exact ⟨_, by simp, .text denotes⟩
    · cases read
  · rename_i inner
    obtain ⟨spaces, split, blank⟩ := skipSpace_split inner
    split at read
    · rename_i closed
      cases read
      rw [closed] at split
      exact ⟨_, by simp [split], .noItems blank⟩
    · split at read
      · rename_i items
        cases read
        obtain ⟨parts, filled, each, whole, rfl⟩ := stand.items items
        refine ⟨_, ?_, .list_padded filled each blank⟩
        rw [split, whole]
        simp
      · cases read
  · rename_i inner
    obtain ⟨spaces, split, blank⟩ := skipSpace_split inner
    split at read
    · rename_i closed
      cases read
      rw [closed] at split
      exact ⟨_, by simp [split], .noMembers blank⟩
    · split at read
      · rename_i items
        cases read
        obtain ⟨members, filled, each, whole, rfl⟩ := stand.members items
        refine ⟨_, ?_, .record_padded filled each blank⟩
        rw [split, whole]
        simp
      · cases read
  · obtain ⟨p, _, rfl, _, again⟩ := readAtom_local read
    exact ⟨p, rfl, .atom (by simpa using again [] rfl)⟩

theorem ReadersStand.readItems {all : List Json} (stand : ReadersStand fuel)
    (read : readItems (fuel + 1) t = .ok (all, rest)) :
    ∃ parts : List (Text × Json), parts ≠ [] ∧ (∀ part ∈ parts, Stands part.1 part.2) ∧
      t = joinWith [.char ','] (parts.map Prod.fst) ++ .char ']' :: rest ∧
      all = parts.map Prod.snd := by
  rw [Json.readItems.eq_def] at read
  dsimp only at read
  split at read
  · cases read
  · rename_i item after first
    obtain ⟨p, rfl, stands⟩ := stand.value first
    obtain ⟨spaces, split, blank⟩ := skipSpace_split after
    split at read
    · rename_i closed
      cases read
      rw [closed] at split
      refine ⟨[(p ++ spaces, item)], List.cons_ne_nil _ _, ?_, by simp [split, joinWith], rfl⟩
      exact List.forall_mem_singleton.mpr (stands.pad_right blank)
    · rename_i next comma
      rw [comma] at split
      obtain ⟨spaces', split', blank'⟩ := skipSpace_split next
      split at read
      · rename_i others
        cases read
        obtain ⟨parts, filled, each, whole, rfl⟩ := stand.items others
        obtain ⟨second, parts, rfl⟩ := List.exists_cons_of_ne_nil filled
        obtain ⟨here, later⟩ := List.forall_mem_cons.mp each
        refine ⟨(p ++ spaces, item) :: (spaces' ++ second.1, second.2) :: parts, List.cons_ne_nil _ _,
          ?_, ?_, rfl⟩
        · exact List.forall_mem_cons.mpr ⟨stands.pad_right blank,
            List.forall_mem_cons.mpr ⟨here.pad_left blank', later⟩⟩
        · rw [split, split', whole, List.map_cons, List.map_cons, List.map_cons, joinWith_cons_cons,
            joinWith_append_head]
          simp
      · cases read
    · cases read

/-- A name in quotes, a colon and a text that stands for a document make up a member, together with
the spaces between and behind them. -/
theorem exists_memberText {body name behind inner after p : Text} (spelled : Denotes body name)
    (colon : skipSpace behind = .char ':' :: inner) (whole : skipSpace inner = p ++ after)
    (stands : Stands p j) :
    ∃ m : MemberText, Stands m.text m.value ∧ m.entry = (name, j) ∧
      .char '"' :: (body ++ .char '"' :: behind) = m.written ++ skipSpace after := by
  obtain ⟨between, split, blank⟩ := skipSpace_split behind
  obtain ⟨leading, split', blank'⟩ := skipSpace_split inner
  obtain ⟨trailing, split'', blank''⟩ := skipSpace_split after
  let m : MemberText :=
    { before := [], body := body, between := between, text := leading ++ p ++ trailing
      name := name, value := j, spaces := blank, spelled := spelled }
  refine ⟨m, (stands.pad_left blank').pad_right blank'', rfl, ?_⟩
  calc
    .char '"' :: (body ++ .char '"' :: behind)
      = .char '"' :: (body ++ .char '"' :: (between ++ .char ':' :: inner)) := by
        rw [split, colon]
    _ = .char '"' :: (body ++ .char '"' :: (between ++ .char ':' :: (leading ++ (p ++ after)))) := by
        rw [split', whole]
    _ = .char '"' :: (body ++ .char '"' :: (between ++ .char ':' ::
          (leading ++ (p ++ (trailing ++ skipSpace after))))) := by
        rw [← split'']
    _ = m.written ++ skipSpace after := by
        simp [m, MemberText.written]

theorem ReadersStand.readMembers {known all : List (Text × Json)} (stand : ReadersStand fuel)
    (read : readMembers (fuel + 1) known t = .ok (all, rest)) :
    ∃ members : List MemberText, members ≠ [] ∧ (∀ m ∈ members, Stands m.text m.value) ∧
      t = joinWith [.char ','] (members.map MemberText.written) ++ .char '\x7d' :: rest ∧
      all = Table.putAll known (members.map MemberText.entry) := by
  rw [Json.readMembers.eq_def] at read
  dsimp only at read
  split at read
  · split at read
    · cases read
    · rename_i name behind string
      obtain ⟨body, rfl, denotes⟩ := readContent_iff.mp (readString_eq_ok string)
      split at read
      · rename_i inner colon
        split at read
        · cases read
        · rename_i value after found
          obtain ⟨p, whole, stands⟩ := stand.value found
          obtain ⟨first, here, entry, written⟩ := exists_memberText denotes colon whole stands
          have put : Table.put name value known = Table.putAll known [first.entry] := by
            rw [entry]
            rfl
          rw [written]
          split at read
          · rename_i closed
            cases read
            refine ⟨[first], List.cons_ne_nil _ _, List.forall_mem_singleton.mpr here, ?_, put⟩
            rw [closed]
            rfl
          · rename_i next comma
            obtain ⟨spaces, split, blank⟩ := skipSpace_split next
            obtain ⟨members, filled, each, others, rfl⟩ := stand.members read
            obtain ⟨second, members, rfl⟩ := List.exists_cons_of_ne_nil filled
            obtain ⟨here', later⟩ := List.forall_mem_cons.mp each
            refine ⟨first :: second.padded spaces blank :: members, List.cons_ne_nil _ _, ?_, ?_, ?_⟩
            · exact List.forall_mem_cons.mpr ⟨here, List.forall_mem_cons.mpr ⟨here', later⟩⟩
            · have joined : joinWith [.char ','] ((first :: second.padded spaces blank :: members).map
                  MemberText.written) = first.written ++ [.char ','] ++
                    (spaces ++ joinWith [.char ','] ((second :: members).map MemberText.written)) := by
                rw [← joinWith_padded second members blank]
                rfl
              rw [comma, split, others, joined]
              simp
            · rw [put]
              rfl
          · cases read
      · cases read
  · cases read

theorem readersStand (fuel : Nat) : ReadersStand fuel := by
  induction fuel with
  | zero => exact ⟨fun read => (nomatch read), fun read => (nomatch read), fun read => (nomatch read)⟩
  | succ fuel stand => exact ⟨stand.readValue, stand.readItems, stand.readMembers⟩

/-! ### What stands for a document is read -/

/-- Before any text that does not continue it, the text is read as the document. -/
def Complete (t : Text) (j : Json) : Prop :=
  ∀ fuel rest, t.length ≤ fuel → Stops rest →
    ∃ after, readValue fuel (skipSpace (t ++ rest)) = .ok (j, after) ∧ skipSpace after = skipSpace rest

theorem isSpace_of_atomic (atomic : isAtomic c = true) : isSpace c = false := by
  cases space : isSpace c with
  | false => rfl
  | true =>
    simp only [isSpace, Bool.or_eq_true, beq_iff_eq] at space
    rcases space with ((rfl | rfl) | rfl) | rfl <;> cases atomic

theorem stops_of_space (space : isSpace c = true) (t : Text) : Stops (c :: t) := by
  simp only [isSpace, Bool.or_eq_true, beq_iff_eq] at space
  rcases space with ((rfl | rfl) | rfl) | rfl <;> rfl

theorem readValue_atom (atomic : isAtomic c = true) (fuel : Nat) (t : Text) :
    readValue (fuel + 1) (c :: t) = readAtom (c :: t) := by
  rw [readValue.eq_def]
  dsimp only
  split
  · rename_i quote
    cases quote
    cases atomic
  · rename_i bracket
    cases bracket
    cases atomic
  · rename_i brace
    cases brace
    cases atomic
  · rfl

theorem readItems_closed (fuel : Nat) (t : Text) (read : List Json × Text) :
    readItems fuel (.char ']' :: t) ≠ .ok read := by
  rcases fuel with _ | _ | fuel <;> exact fun done => nomatch done

theorem readMembers_closed (fuel : Nat) (t : Text) (read : List (Text × Json) × Text) :
    readMembers fuel [] (.char '\x7d' :: t) ≠ .ok read := by
  cases fuel <;> exact fun done => nomatch done

theorem readItems_complete {parts : List (Text × Json)} (rest : Text) (filled : parts ≠ [])
    (complete : ∀ part ∈ parts, Complete part.1 part.2)
    (enough : (joinWith [.char ','] (parts.map Prod.fst)).length < fuel) :
    readItems fuel (skipSpace (joinWith [.char ','] (parts.map Prod.fst) ++ .char ']' :: rest)) =
      .ok (parts.map Prod.snd, rest) := by
  induction parts generalizing fuel with
  | nil => exact (filled rfl).elim
  | cons part parts ih =>
    obtain ⟨first, others⟩ := List.forall_mem_cons.mp complete
    obtain ⟨fuel, rfl⟩ := Nat.exists_eq_succ_of_ne_zero (Nat.ne_zero_of_lt enough)
    cases parts with
    | nil =>
      rw [List.map_singleton, joinWith] at enough ⊢
      obtain ⟨after, read, same⟩ := first fuel (.char ']' :: rest) (by omega) rfl
      rw [skipSpace_cons rfl] at same
      rw [readItems, read]
      dsimp only
      rw [same]
      rfl
    | cons next parts =>
      rw [List.map_cons, List.map_cons, joinWith_cons_cons, ← List.map_cons] at enough ⊢
      simp only [List.length_append, List.length_singleton] at enough
      rw [List.append_assoc, List.append_assoc, List.singleton_append]
      obtain ⟨after, read, same⟩ := first fuel (.char ',' ::
        (joinWith [.char ','] ((next :: parts).map Prod.fst) ++ .char ']' :: rest)) (by omega) rfl
      have later := ih (List.cons_ne_nil _ _) others (show _ < fuel by omega)
      rw [skipSpace_cons rfl] at same
      rw [readItems, read]
      simp only [same]
      rw [later]
      rfl

/-- One member is read, and what follows it decides whether reading ends. -/
theorem readMembers_written {m : MemberText} (complete : Complete m.text m.value)
    (known : List (Text × Json)) (enough : m.text.length ≤ fuel) (stops : Stops rest) :
    readMembers (fuel + 1) known (skipSpace (m.written ++ rest)) =
      match skipSpace rest with
      | .char '\x7d' :: after => .ok (Table.put m.name m.value known, after)
      | .char ',' :: after => readMembers fuel (Table.put m.name m.value known) (skipSpace after)
      | _ => .error .malformed := by
  have before : ∀ c ∈ m.before, isSpace c = true := fun c member =>
    m.spaces c (List.mem_append_left _ member)
  have between : ∀ c ∈ m.between, isSpace c = true := fun c member =>
    m.spaces c (List.mem_append_right _ member)
  have begins : skipSpace (m.written ++ rest) =
      .char '"' :: (m.body ++ .char '"' :: (m.between ++ .char ':' :: (m.text ++ rest))) := by
    rw [MemberText.written, List.append_assoc, skipSpace_append before, List.cons_append,
      skipSpace_cons rfl]
    simp
  obtain ⟨after, value, same⟩ := complete fuel rest enough stops
  rw [begins, readMembers, readString_of_denotes m.spelled]
  dsimp only
  rw [skipSpace_append between, skipSpace_cons rfl]
  simp only [value]
  exact same ▸ rfl

theorem readMembers_complete {members : List MemberText} (known : List (Text × Json)) (rest : Text)
    (filled : members ≠ []) (complete : ∀ m ∈ members, Complete m.text m.value)
    (enough : (joinWith [.char ','] (members.map MemberText.written)).length < fuel) :
    readMembers fuel known
        (skipSpace (joinWith [.char ','] (members.map MemberText.written) ++ .char '\x7d' :: rest)) =
      .ok (Table.putAll known (members.map MemberText.entry), rest) := by
  induction members generalizing known fuel with
  | nil => exact (filled rfl).elim
  | cons m members ih =>
    obtain ⟨first, others⟩ := List.forall_mem_cons.mp complete
    obtain ⟨fuel, rfl⟩ := Nat.exists_eq_succ_of_ne_zero (Nat.ne_zero_of_lt enough)
    have short : m.text.length < m.written.length := by
      simp [MemberText.written]
      omega
    cases members with
    | nil =>
      rw [List.map_singleton, joinWith] at enough ⊢
      have stops : Stops (.char '\x7d' :: rest) := rfl
      rw [readMembers_written first known (by omega) stops, skipSpace_cons rfl]
      rfl
    | cons next members =>
      rw [List.map_cons, List.map_cons, joinWith_cons_cons, ← List.map_cons] at enough ⊢
      simp only [List.length_append, List.length_singleton] at enough
      have stops : Stops (.char ',' :: (joinWith [.char ','] ((next :: members).map
          MemberText.written) ++ .char '\x7d' :: rest)) := rfl
      rw [List.append_assoc, List.append_assoc, List.singleton_append,
        readMembers_written first known (by omega) stops, skipSpace_cons rfl]
      exact ih _ (List.cons_ne_nil _ _) others (by omega)

/-- A text that begins with no space is complete if it is read as it stands. -/
theorem complete_of_readValue (begins : isSpace c = false)
    (read : ∀ fuel rest, t.length ≤ fuel → Stops rest →
      readValue (fuel + 1) (c :: (t ++ rest)) = .ok (j, rest)) : Complete (c :: t) j := by
  intro fuel rest enough stops
  obtain ⟨fuel, rfl⟩ := Nat.exists_eq_succ_of_ne_zero (Nat.ne_zero_of_lt enough)
  refine ⟨rest, ?_, rfl⟩
  rw [List.cons_append, skipSpace_cons begins]
  exact read fuel rest (Nat.le_of_succ_le_succ enough) stops

theorem complete_atom (read : readAtom t = .ok (j, [])) : Complete t j := by
  obtain ⟨p, filled, split, atomic, again⟩ := readAtom_local read
  rw [List.append_nil] at split
  subst split
  obtain ⟨c, p, rfl⟩ := List.exists_cons_of_ne_nil filled
  obtain ⟨first, _⟩ := List.forall_mem_cons.mp atomic
  refine complete_of_readValue (isSpace_of_atomic first) fun fuel rest _ stops => ?_
  rw [readValue_atom first]
  exact again rest stops

theorem complete_text {body s : Text} (denotes : Denotes body s) :
    Complete (.char '"' :: (body ++ [.char '"'])) (.text s) := by
  refine complete_of_readValue rfl fun fuel rest _ _ => ?_
  rw [List.append_assoc, List.singleton_append, readValue, readString_of_denotes denotes]

theorem complete_noItems (spaces : ∀ c ∈ t, isSpace c = true) :
    Complete (.char '[' :: (t ++ [.char ']'])) (.list []) := by
  refine complete_of_readValue rfl fun fuel rest _ _ => ?_
  rw [List.append_assoc, List.singleton_append, readValue, skipSpace_append spaces,
    skipSpace_cons rfl]
  rfl

theorem complete_list {parts : List (Text × Json)} (filled : parts ≠ [])
    (each : ∀ part ∈ parts, Complete part.1 part.2) :
    Complete (.char '[' :: (joinWith [.char ','] (parts.map Prod.fst) ++ [.char ']']))
      (.list (parts.map Prod.snd)) := by
  refine complete_of_readValue rfl fun fuel rest enough _ => ?_
  rw [List.length_append] at enough
  have items := readItems_complete rest filled each enough
  rw [List.append_assoc, List.singleton_append, readValue]
  split
  · rename_i closed
    rw [closed] at items
    exact (readItems_closed _ _ _ items).elim
  · rw [items]

theorem complete_noMembers (spaces : ∀ c ∈ t, isSpace c = true) :
    Complete (.char '\x7b' :: (t ++ [.char '\x7d'])) (.record []) := by
  refine complete_of_readValue rfl fun fuel rest _ _ => ?_
  rw [List.append_assoc, List.singleton_append, readValue, skipSpace_append spaces,
    skipSpace_cons rfl]
  rfl

theorem complete_record {members : List MemberText} (filled : members ≠ [])
    (each : ∀ m ∈ members, Complete m.text m.value) :
    Complete
      (.char '\x7b' :: (joinWith [.char ','] (members.map MemberText.written) ++ [.char '\x7d']))
      (.record (Table.ofList (members.map MemberText.entry))) := by
  refine complete_of_readValue rfl fun fuel rest enough _ => ?_
  rw [List.length_append] at enough
  have all := readMembers_complete [] rest filled each enough
  rw [List.append_assoc, List.singleton_append, readValue]
  split
  · rename_i closed
    rw [closed] at all
    exact (readMembers_closed _ _ _ all).elim
  · rw [all]
    rfl

theorem Complete.spaceBefore (complete : Complete t j) (space : isSpace c = true) :
    Complete (c :: t) j := by
  intro fuel rest enough stops
  rw [List.cons_append, skipSpace, List.dropWhile_cons_of_pos space]
  exact complete fuel rest (Nat.le_of_succ_le enough) stops

theorem Complete.spaceAfter (complete : Complete t j) (space : isSpace c = true) :
    Complete (t ++ [c]) j := by
  intro fuel rest enough stops
  rw [List.length_append] at enough
  rw [List.append_assoc, List.singleton_append]
  obtain ⟨after, read, same⟩ :=
    complete fuel (c :: rest) (Nat.le_of_succ_le enough) (stops_of_space space rest)
  refine ⟨after, read, same.trans ?_⟩
  rw [skipSpace, List.dropWhile_cons_of_pos space]
  rfl

theorem Stands.complete (stands : Stands t j) : Complete t j := by
  induction stands with
  | atom read => exact complete_atom read
  | text denotes => exact complete_text denotes
  | noItems spaces => exact complete_noItems spaces
  | list filled _ ih => exact complete_list filled ih
  | noMembers spaces => exact complete_noMembers spaces
  | record filled _ ih => exact complete_record filled ih
  | spaceBefore space _ ih => exact ih.spaceBefore space
  | spaceAfter space _ ih => exact ih.spaceAfter space

/-- A text is read as a document exactly if it stands for the document. -/
theorem read_eq_ok_iff : read t = .ok j ↔ Stands t j := by
  unfold read
  constructor
  · intro done
    split at done
    · cases done
    · rename_i rest value
      split at done
      · rename_i ended
        cases done
        obtain ⟨leading, split, blank⟩ := skipSpace_split t
        obtain ⟨trailing, split', blank'⟩ := skipSpace_split rest
        obtain ⟨p, whole, stands⟩ := (readersStand _).value value
        rw [List.isEmpty_iff.mp ended, List.append_nil] at split'
        subst split'
        rw [split, whole, ← List.append_assoc]
        exact (stands.pad_left blank).pad_right blank'
      · cases done
  · intro stands
    obtain ⟨after, read, same⟩ := stands.complete (2 * t.length + 2) [] (by omega) rfl
    rw [List.append_nil] at read
    rw [read]
    dsimp only
    rw [same]
    rfl

/-- What stands between braces is spaces alone, or the members of the record. -/
theorem stands_braces_iff :
    Stands (.char '\x7b' :: (t ++ [.char '\x7d'])) j ↔
      ((∀ c ∈ t, isSpace c = true) ∧ j = .record []) ∨
        ∃ members : List MemberText, members ≠ [] ∧ (∀ m ∈ members, Stands m.text m.value) ∧
          t = joinWith [.char ','] (members.map MemberText.written) ∧
          j = .record (Table.ofList (members.map MemberText.entry)) := by
  constructor
  · intro stands
    generalize whole : CodePoint.char '\x7b' :: (t ++ [CodePoint.char '\x7d']) = w at stands
    cases stands with
    | atom read =>
      obtain ⟨p, filled, split, atomic, _⟩ := readAtom_local read
      rw [List.append_nil] at split
      subst split
      subst whole
      exact absurd (atomic _ List.mem_cons_self) (by decide)
    | text _ => cases whole
    | noItems _ => cases whole
    | list _ _ => cases whole
    | noMembers spaces =>
      obtain ⟨rfl, _⟩ := List.append_inj' (List.cons.inj whole).2 rfl
      exact .inl ⟨spaces, rfl⟩
    | @record members filled each =>
      obtain ⟨rfl, _⟩ := List.append_inj' (List.cons.inj whole).2 rfl
      exact .inr ⟨members, filled, each, rfl, rfl⟩
    | spaceBefore space _ =>
      cases whole
      cases space
    | @spaceAfter c u _ space _ =>
      obtain ⟨_, same⟩ := List.append_inj' ((List.cons_append ..).trans whole) rfl
      cases same
      cases space
  · rintro (⟨spaces, rfl⟩ | ⟨members, filled, each, rfl, rfl⟩)
    · exact .noMembers spaces
    · exact .record filled each

section Front

variable {rest' : Text} {j' : Json}

/-! ### Documents at the front of a text -/

/-- At most one document stands at the front of a text, and behind it the rest is the same. -/
theorem Stands.front_unique (stands : Stands t j) (stands' : Stands u j')
    (same : t ++ rest = u ++ rest') (stops : Stops rest) (stops' : Stops rest') :
    j = j' ∧ skipSpace rest = skipSpace rest' := by
  obtain ⟨after, read, left⟩ := stands.complete (t.length + u.length) rest (by omega) stops
  obtain ⟨after', read', left'⟩ := stands'.complete (t.length + u.length) rest' (by omega) stops'
  rw [same, read'] at read
  cases read
  exact ⟨rfl, left.symm.trans left'⟩

theorem eq_of_spaces {a b : Text} (same : t ++ a = u ++ b) (spaces : ∀ c ∈ a, isSpace c = true)
    (spaces' : ∀ c ∈ b, isSpace c = true) (ends : ∀ c, t.getLast? = some c → isSpace c = false)
    (ends' : ∀ c, u.getLast? = some c → isSpace c = false) : t = u := by
  have nothing {d t : Text} (blank : ∀ c ∈ d, isSpace c = true)
      (ends : ∀ c, (t ++ d).getLast? = some c → isSpace c = false) : d = [] := by
    rcases List.eq_nil_or_concat d with empty | ⟨front, last, rfl⟩
    · exact empty
    · have firm := ends last (by simp)
      rw [blank last (by simp)] at firm
      cases firm
  rcases List.append_eq_append_iff.mp same with ⟨d, rfl, rfl⟩ | ⟨d, rfl, rfl⟩
  · rw [nothing (fun c member => spaces c (List.mem_append_left _ member)) ends', List.append_nil]
  · rw [nothing (fun c member => spaces' c (List.mem_append_left _ member)) ends, List.append_nil]

/-- Two texts for documents at the front of one text are the same, if neither ends with a space. -/
theorem Stands.text_unique (stands : Stands t j) (stands' : Stands u j')
    (same : t ++ rest = u ++ rest') (stops : Stops rest) (stops' : Stops rest')
    (ends : ∀ c, t.getLast? = some c → isSpace c = false)
    (ends' : ∀ c, u.getLast? = some c → isSpace c = false) : t = u := by
  obtain ⟨_, behind⟩ := stands.front_unique stands' same stops stops'
  obtain ⟨a, split, spaces⟩ := skipSpace_split rest
  obtain ⟨b, split', spaces'⟩ := skipSpace_split rest'
  rw [split, split', behind, ← List.append_assoc, ← List.append_assoc] at same
  exact eq_of_spaces (List.append_cancel_right same) spaces spaces' ends ends'

end Front

end GuardedConsole.Json
