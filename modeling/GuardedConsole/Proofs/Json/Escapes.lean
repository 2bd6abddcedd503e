import GuardedConsole.Proofs.Json.Layout
import GuardedConsole.Proofs.Json.Texts

/-!
# Escapes and apostrophes

What is written has whole escapes, none of which stands for an apostrophe: `composes_wholeEscapes`.
Reading such a text never begins or ends within an escape, so if the text itself has no apostrophe,
what is read from it has none: `Stands.behind`.
-/

namespace GuardedConsole.Json

open Text

variable {c e : CodePoint} {t u rest body content s : Text} {j : Json}

/-- The text is made up of whole escapes and of other characters, and no escape by number stands for
an apostrophe. -/
inductive WholeEscapes : Text → Prop where
  | nil : WholeEscapes []
  | plain {c : CodePoint} {t : Text} : c ≠ '\\' → WholeEscapes t → WholeEscapes (c :: t)
  | escape {e : CodePoint} {t : Text} : e ≠ 'u' → WholeEscapes t →
    WholeEscapes (.char '\\' :: e :: t)
  | unit {w x y z : CodePoint} {t : Text} : .char '\'' ∉ [w, x, y, z] →
    hexPoint? w x y z ≠ some (.char '\'') → WholeEscapes t →
    WholeEscapes (.char '\\' :: .char 'u' :: w :: x :: y :: z :: t)

namespace WholeEscapes

theorem append (whole : WholeEscapes t) (whole' : WholeEscapes u) : WholeEscapes (t ++ u) := by
  induction whole with
  | nil => exact whole'
  | plain other _ ih => exact .plain other ih
  | escape other _ ih => exact .escape other ih
  | unit apart other _ ih => exact .unit apart other ih

theorem of_not_mem (noBackslash : .char '\\' ∉ t) : WholeEscapes t := by
  induction t with
  | nil => exact .nil
  | cons c t ih =>
    have other := List.ne_of_not_mem_cons noBackslash
    exact .plain other.symm (ih (List.not_mem_of_not_mem_cons noBackslash))

theorem joined {separator : Text} (noBackslash : .char '\\' ∉ separator) {parts : List Text}
    (each : ∀ t ∈ parts, WholeEscapes t) : WholeEscapes (joinWith separator parts) := by
  induction parts with
  | nil => exact .nil
  | cons t parts ih =>
    obtain ⟨first, others⟩ := List.forall_mem_cons.mp each
    cases parts with
    | nil => exact first
    | cons next parts => exact (first.append (of_not_mem noBackslash)).append (ih others)

/-! ### What is left behind a part -/

theorem tail_plain (whole : WholeEscapes (c :: t)) (other : c ≠ '\\') : WholeEscapes t := by
  cases whole with
  | plain _ behind => exact behind
  | escape _ _ => exact (other rfl).elim
  | unit _ _ _ => exact (other rfl).elim

theorem tail_escape (whole : WholeEscapes (.char '\\' :: e :: t)) (other : e ≠ 'u') :
    WholeEscapes t := by
  cases whole with
  | plain noBackslash _ => exact (noBackslash rfl).elim
  | escape _ behind => exact behind
  | unit _ _ _ => exact (other rfl).elim

theorem tail_unit {w x y z : CodePoint}
    (whole : WholeEscapes (.char '\\' :: .char 'u' :: w :: x :: y :: z :: t)) :
    hexPoint? w x y z ≠ some (.char '\'') ∧ WholeEscapes t := by
  cases whole with
  | plain noBackslash _ => exact (noBackslash rfl).elim
  | escape other _ => exact (other rfl).elim
  | unit _ other behind => exact ⟨other, behind⟩

theorem behind (whole : WholeEscapes (t ++ rest)) (noBackslash : .char '\\' ∉ t) :
    WholeEscapes rest := by
  induction t with
  | nil => exact whole
  | cons c t ih =>
    have other := List.ne_of_not_mem_cons noBackslash
    exact ih (tail_plain whole other.symm) (List.not_mem_of_not_mem_cons noBackslash)

theorem behind_spaces (whole : WholeEscapes (t ++ rest)) (spaces : ∀ c ∈ t, isSpace c = true) :
    WholeEscapes rest := by
  refine whole.behind fun member => ?_
  exact absurd (spaces _ member) (by decide)

theorem tail_space (whole : WholeEscapes (c :: t)) (space : isSpace c = true) : WholeEscapes t :=
  behind_spaces (t := [c]) whole (List.forall_mem_singleton.mpr space)

end WholeEscapes

/-! ### Written documents -/

/-- A character is written behind a backslash, as it is, or by the numbers of its code units, none of
which is that of an apostrophe. -/
theorem escapeChar_cases (c : CodePoint) :
    (∃ e : CodePoint, escapeChar c = [.char '\\', e] ∧ e ≠ 'u' ∧ e ≠ '\'') ∨
      (escapeChar c = [c] ∧ c ≠ '\\') ∨
      ∃ units : List Nat, (∀ n ∈ units, n < 0x10000 ∧ n ≠ 39) ∧
        escapeChar c = units.flatMap unitEscape := by
  unfold escapeChar
  split
  · rename_i special
    rcases special with rfl | rfl
    · exact .inl ⟨_, rfl, by decide⟩
    · exact .inl ⟨_, rfl, by decide⟩
  rename_i plain
  obtain ⟨_, noBackslash⟩ := not_or.mp plain
  split
  · exact .inl ⟨'n', rfl, by decide⟩
  split
  · exact .inl ⟨'r', rfl, by decide⟩
  split
  · exact .inl ⟨'t', rfl, by decide⟩
  split
  · exact .inl ⟨'f', rfl, by decide⟩
  split
  · exact .inl ⟨'b', rfl, by decide⟩
  split
  · exact .inr (.inl ⟨rfl, noBackslash⟩)
  rename_i hidden
  have bound := c.toNat_lt
  split
  · rename_i small
    refine .inr (.inr ⟨[c.toNat], ?_, by simp⟩)
    simp only [List.mem_singleton, forall_eq]
    omega
  · refine .inr (.inr ⟨[0xd800 + (c.toNat - 0x10000) / 0x400, 0xdc00 + (c.toNat - 0x10000) % 0x400],
      ?_, by simp⟩)
    simp only [List.mem_cons, List.not_mem_nil, or_false, forall_eq_or_imp, forall_eq]
    omega

/-- Four hexadecimal digits for another character than an apostrophe. -/
theorem exists_unitEscape {n : Nat} (small : n < 0x10000) (other : n ≠ 39) : ∃ w x y z,
    unitEscape n = [.char '\\', .char 'u', w, x, y, z] ∧ .char '\'' ∉ [w, x, y, z] ∧
      hexPoint? w x y z ≠ some (.char '\'') := by
  obtain ⟨w, x, y, z, digits, read⟩ := hexPoint?_hexDigits small
  refine ⟨w, x, y, z, by rw [unitEscape, digits], not_mem_of_hexPoint? read rfl, ?_⟩
  rw [read]
  intro same
  have number := congrArg CodePoint.toNat (Option.some.inj same)
  rw [CodePoint.toNat_ofNat (by omega)] at number
  exact other number

/-- An apostrophe is only written for one. -/
theorem eq_of_mem_escapeChar (member : .char '\'' ∈ escapeChar c) : c = '\'' := by
  rcases escapeChar_cases c with ⟨e, shown, _, other⟩ | ⟨shown, _⟩ | ⟨units, each, shown⟩
  · rw [shown] at member
    simp only [List.mem_cons, List.not_mem_nil, or_false] at member
    rcases member with same | same
    · cases same
    · exact (other same.symm).elim
  · rw [shown] at member
    exact (List.mem_singleton.mp member).symm
  · rw [shown] at member
    obtain ⟨n, listed, inside⟩ := List.mem_flatMap.mp member
    obtain ⟨small, other⟩ := each n listed
    obtain ⟨w, x, y, z, written, apart, _⟩ := exists_unitEscape small other
    rw [written] at inside
    exact (apart (by simpa using inside)).elim

theorem wholeEscapes_escapeChar (c : CodePoint) : WholeEscapes (escapeChar c) := by
  rcases escapeChar_cases c with ⟨e, shown, other, _⟩ | ⟨shown, other⟩ | ⟨units, each, shown⟩
  · rw [shown]
    exact .escape other .nil
  · rw [shown]
    exact .plain other .nil
  · rw [shown]
    clear shown
    induction units with
    | nil => exact .nil
    | cons n units ih =>
      obtain ⟨⟨small, other⟩, others⟩ := List.forall_mem_cons.mp each
      obtain ⟨w, x, y, z, written, apart, named⟩ := exists_unitEscape small other
      rw [List.flatMap_cons, written]
      exact WholeEscapes.append (.unit apart named .nil) (ih others)

theorem wholeEscapes_stringText (s : Text) : WholeEscapes (stringText s) := by
  have body : WholeEscapes (s.flatMap escapeChar) := by
    induction s with
    | nil => exact .nil
    | cons c s ih =>
      rw [List.flatMap_cons]
      exact (wholeEscapes_escapeChar c).append ih
  exact .plain (by decide) (body.append (.plain (by decide) .nil))

theorem not_mem_of_bare {d : CodePoint} (bare : ∀ c ∈ t, isBare c = true) (other : isBare d = false) :
    d ∉ t := by
  intro member
  rw [bare d member] at other
  cases other

theorem composes_wholeEscapes : Composes IsWhole WholeEscapes WholeEscapes where
  bare t bare := .of_not_mem (not_mem_of_bare bare rfl)
  string s _ := wholeEscapes_stringText s
  append t u := .append
  joined parts := .joined (by decide)
  closing t u := .append
  list t content := .plain (by decide) (content.append (.plain (by decide) .nil))
  record t content := .plain (by decide) (content.append (.plain (by decide) .nil))

/-- Nothing but an apostrophe in a text is written as one. -/
theorem composes_noApostrophe :
    Composes (.char '\'' ∉ ·) (.char '\'' ∉ ·) (.char '\'' ∉ ·) where
  bare t bare := not_mem_of_bare bare rfl
  string s absent := by
    intro member
    simp only [stringText, List.mem_cons, List.mem_append, List.mem_flatMap, List.not_mem_nil,
      or_false] at member
    rcases member with (same | ⟨c, inside, written⟩) | same
    · cases same
    · obtain rfl := eq_of_mem_escapeChar written
      exact absent inside
    · cases same
  append t u absent absent' := by simp [absent, absent']
  joined parts absent member := by
    rcases mem_joinWith member with comma | ⟨t, listed, inside⟩
    · cases List.mem_singleton.mp comma
    · exact absent t listed inside
  closing t u absent absent' := by simp [absent, absent']
  list t absent := by simpa using absent
  record t absent := by simpa using absent

/-! ### What is read -/

theorem escapeValue?_ne_apostrophe {point : CodePoint} (known : escapeValue? e = some point) :
    point ≠ '\'' := by
  rintro rfl
  unfold escapeValue? at known
  split at known <;> cases known

theorem paired_ne_apostrophe (k l : Fin 0x400) : CodePoint.paired k l ≠ '\'' := by
  intro same
  have number := congrArg CodePoint.toNat same
  rw [CodePoint.paired, CodePoint.toNat_ofNat (by omega)] at number
  have mark : CodePoint.toNat '\'' = 39 := rfl
  omega

theorem allTexts_of_readAtom {p : Text → Prop} (read : readAtom t = .ok (j, rest)) :
    AllTexts p j := by
  unfold readAtom at read
  split at read
  · rename_i word value found
    cases read
    have plain : ∀ entry ∈ words, AllTexts p entry.2 := by
      intro entry listed
      simp only [words, List.mem_cons, List.not_mem_nil, or_false] at listed
      rcases listed with rfl | rfl | rfl | rfl | rfl | rfl <;> constructor
    exact plain _ (List.mem_of_find?_eq_some found)
  · unfold readNumber at read
    dsimp only at read
    split at read
    · cases read
    · split at read
      · split at read
        · cases read
          exact .int _
        · cases read
      · cases read
        exact .float _

/-- Behind a string, the escapes are whole, and its content has no apostrophe. -/
theorem Denotes.behind (denotes : Denotes body s) (absent : .char '\'' ∉ body)
    (whole : WholeEscapes (body ++ .char '"' :: rest)) :
    WholeEscapes rest ∧ .char '\'' ∉ s := by
  induction denotes with
  | nil => exact ⟨whole.tail_plain (by decide), List.not_mem_nil⟩
  | plain _ noBackslash _ _ ih =>
    obtain ⟨behind, clear⟩ := ih (List.not_mem_of_not_mem_cons absent) (whole.tail_plain noBackslash)
    exact ⟨behind, List.not_mem_cons_of_ne_of_not_mem (List.ne_of_not_mem_cons absent) clear⟩
  | escape known _ ih =>
    obtain ⟨behind, clear⟩ := ih (by simp at absent; exact absent.2)
      (whole.tail_escape (escapeValue?_ne_unit known))
    exact ⟨behind, List.not_mem_cons_of_ne_of_not_mem (escapeValue?_ne_apostrophe known).symm clear⟩
  | @unit w x y z point body content read _ ih =>
    obtain ⟨named, whole⟩ := whole.tail_unit
    obtain ⟨behind, clear⟩ := ih (fun member => absent (by simp [member])) whole
    refine ⟨behind, ?_⟩
    rcases putEscape_cases point body content with ⟨k, l, after, _, _, rfl, _, joined⟩ | put
    · rw [joined]
      exact List.not_mem_cons_of_ne_of_not_mem (paired_ne_apostrophe k l).symm
        (List.not_mem_of_not_mem_cons clear)
    · rw [put]
      refine List.not_mem_cons_of_ne_of_not_mem ?_ clear
      rintro rfl
      exact named read

section Joined

variable {α : Type} {parts : List α} {shown : α → Text} {P : α → Prop}

/-- What is known of each part, wherever it stands, is known of all parts that are joined. -/
theorem behind_joined
    (each : ∀ a ∈ parts, .char '\'' ∉ shown a → ∀ rest, WholeEscapes (shown a ++ rest) →
      WholeEscapes rest ∧ P a)
    (absent : .char '\'' ∉ joinWith [.char ','] (parts.map shown))
    (whole : WholeEscapes (joinWith [.char ','] (parts.map shown) ++ rest)) :
    WholeEscapes rest ∧ ∀ a ∈ parts, P a := by
  induction parts with
  | nil => exact ⟨whole, List.forall_mem_nil _⟩
  | cons a parts ih =>
    obtain ⟨first, others⟩ := List.forall_mem_cons.mp each
    cases parts with
    | nil =>
      obtain ⟨behind, holds⟩ := first absent rest whole
      exact ⟨behind, List.forall_mem_singleton.mpr holds⟩
    | cons next parts =>
      rw [List.map_cons, List.map_cons, joinWith_cons_cons, ← List.map_cons] at absent whole
      simp only [List.mem_append, not_or] at absent
      rw [List.append_assoc, List.append_assoc] at whole
      obtain ⟨behind, holds⟩ := first absent.1.1 _ whole
      obtain ⟨behind', all⟩ := ih others absent.2 (behind.tail_plain (by decide))
      exact ⟨behind', List.forall_mem_cons.mpr ⟨holds, all⟩⟩

end Joined

theorem MemberText.behind {m : MemberText} (absent : .char '\'' ∉ m.written)
    (value : .char '\'' ∉ m.text → ∀ rest, WholeEscapes (m.text ++ rest) →
      WholeEscapes rest ∧ AllTexts (.char '\'' ∉ ·) m.value)
    (whole : WholeEscapes (m.written ++ rest)) :
    WholeEscapes rest ∧ .char '\'' ∉ m.name ∧ AllTexts (.char '\'' ∉ ·) m.value := by
  simp only [written, List.mem_append, List.mem_cons, not_or] at absent
  obtain ⟨_, _, inBody, _, _, _, inText⟩ := absent
  have opened : WholeEscapes (.char '"' :: (m.body ++ .char '"' :: (m.between ++ .char ':' ::
      (m.text ++ rest)))) := by
    refine WholeEscapes.behind_spaces (t := m.before) ?_ fun c member =>
      m.spaces c (List.mem_append_left _ member)
    simpa [written] using whole
  obtain ⟨named, clear⟩ := m.spelled.behind inBody (opened.tail_plain (by decide))
  have colon := named.behind_spaces fun c member => m.spaces c (List.mem_append_right _ member)
  obtain ⟨behind, all⟩ := value inText rest (colon.tail_plain (by decide))
  exact ⟨behind, clear, all⟩

/-- What is known of each member is known of the record that they make up. -/
theorem allTexts_ofMembers {members : List MemberText} {p : Text → Prop}
    (all : ∀ m ∈ members, p m.name ∧ AllTexts p m.value) :
    AllTexts p (.record (Table.ofList (members.map MemberText.entry))) := by
  have entries : ∀ entry ∈ Table.ofList (members.map MemberText.entry),
      p entry.1 ∧ AllTexts p entry.2 := by
    intro entry listed
    rcases Table.mem_of_putAll listed with none | inside
    · cases none
    · obtain ⟨m, among, rfl⟩ := List.mem_map.mp inside
      exact all m among
  exact .record (fun m listed => (entries m listed).1) fun m listed => (entries m listed).2

/-- A text without apostrophes stands for a document without apostrophes, in whatever text of whole
escapes it stands, and leaves whole escapes behind. -/
theorem Stands.behind (stands : Stands t j) (absent : .char '\'' ∉ t)
    (whole : WholeEscapes (t ++ rest)) : WholeEscapes rest ∧ AllTexts (.char '\'' ∉ ·) j := by
  induction stands generalizing rest with
  | @atom t _ read =>
    obtain ⟨p, _, split, atomic, _⟩ := readAtom_local read
    rw [List.append_nil] at split
    subst split
    have noBackslash : .char '\\' ∉ t := fun member => absurd (atomic _ member) (by decide)
    exact ⟨whole.behind noBackslash, allTexts_of_readAtom read⟩
  | @text body _ denotes =>
    rw [List.cons_append, List.append_assoc] at whole
    obtain ⟨behind, clear⟩ := denotes.behind (fun member => absent (by simp [member]))
      (whole.tail_plain (by decide))
    exact ⟨behind, .text clear⟩
  | noItems spaces =>
    rw [List.cons_append, List.append_assoc] at whole
    have behind := (whole.tail_plain (by decide)).behind_spaces spaces
    exact ⟨behind.tail_plain (by decide), .list (List.forall_mem_nil _)⟩
  | @list parts _ _ ih =>
    rw [List.cons_append, List.append_assoc] at whole
    obtain ⟨behind, all⟩ := behind_joined
      (P := fun part => AllTexts (.char '\'' ∉ ·) part.2)
      (fun part listed clear _ => ih part listed clear) (fun member => absent (by simp [member]))
      (whole.tail_plain (by decide))
    refine ⟨behind.tail_plain (by decide), .list ?_⟩
    intro item listed
    obtain ⟨part, inside, rfl⟩ := List.mem_map.mp listed
    exact all part inside
  | noMembers spaces =>
    rw [List.cons_append, List.append_assoc] at whole
    have behind := (whole.tail_plain (by decide)).behind_spaces spaces
    exact ⟨behind.tail_plain (by decide), .record (List.forall_mem_nil _) (List.forall_mem_nil _)⟩
  | @record members _ _ ih =>
    rw [List.cons_append, List.append_assoc] at whole
    obtain ⟨behind, all⟩ := behind_joined
      (P := fun m : MemberText => .char '\'' ∉ m.name ∧ AllTexts (.char '\'' ∉ ·) m.value)
      (fun m listed clear rest => m.behind clear fun absent _ => ih m listed absent)
      (fun member => absent (by simp [member])) (whole.tail_plain (by decide))
    exact ⟨behind.tail_plain (by decide), allTexts_ofMembers all⟩
  | @spaceBefore c _ _ space _ ih =>
    exact ih (List.not_mem_of_not_mem_cons absent) (whole.tail_space space)
  | @spaceAfter c _ _ space _ ih =>
    rw [List.append_assoc] at whole
    obtain ⟨behind, all⟩ := ih (fun member => absent (List.mem_append_left _ member)) whole
    exact ⟨behind.tail_space space, all⟩

end GuardedConsole.Json
