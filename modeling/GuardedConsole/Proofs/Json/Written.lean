import GuardedConsole.Proofs.Json.Escaping
import GuardedConsole.Proofs.Json.Grammar
import GuardedConsole.Proofs.Json.Integers

/-!
# Reading what is written

A document without doubles, whose texts are whole and whose integers are not too long, is read back
from its written form, whatever spaces stand behind it: `read_write`. By `Stands.writeAt` the written
form stands for the document at every level of indentation.
-/

namespace GuardedConsole.Json

open Text

variable {level : Nat} {j : Json} {items : List Json} {members : List (Text × Json)} {u : Text}

/-- The document is one that can be read back: its integers have no more digits than are read, its
texts and names are whole, and no name of a record comes twice. -/
inductive Readable : Json → Prop where
  | null : Readable .null
  | bool (b : Bool) : Readable (.bool b)
  | int {i : Int} : i.natAbs < 10 ^ Number.maxIntegerDigits → Readable (.int i)
  | text {t : Text} : t.IsWhole → Readable (.text t)
  | list {items : List Json} : (∀ item ∈ items, Readable item) → Readable (.list items)
  | record {members : List (Text × Json)} : (Table.names members).Nodup →
    (∀ m ∈ members, m.1.IsWhole) → (∀ m ∈ members, Readable m.2) → Readable (.record members)

/-! ### Spaces in lists -/

theorem isSpace_of_mem_newLine (level : Nat) : ∀ c ∈ newLine level, isSpace c = true := by
  intro c member
  rcases List.mem_cons.mp member with rfl | indent
  · rfl
  · rw [(List.mem_replicate.mp indent).2]
    rfl

/-- What stands behind joined parts goes to the last of them. -/
theorem joinWith_append_last (separator a : Text) (parts : List Text) :
    joinWith separator (parts ++ [a ++ u]) = joinWith separator (parts ++ [a]) ++ u := by
  by_cases empty : parts = []
  · rw [empty]
    rfl
  · rw [joinWith_append empty (List.cons_ne_nil _ _), joinWith_append empty (List.cons_ne_nil _ _),
      List.append_assoc _ _ u]
    rfl

theorem Stands.list_spaced {parts : List (Text × Json)} (filled : parts ≠ [])
    (each : ∀ part ∈ parts, Stands part.1 part.2) (spaces : ∀ c ∈ u, isSpace c = true) :
    Stands (.char '[' :: (joinWith [.char ','] (parts.map Prod.fst) ++ u ++ [.char ']']))
      (.list (parts.map Prod.snd)) := by
  obtain ⟨front, last, rfl⟩ := (List.eq_nil_or_concat parts).resolve_left filled
  rw [List.concat_eq_append] at each ⊢
  have padded : ∀ part ∈ front ++ [(last.1 ++ u, last.2)], Stands part.1 part.2 := by
    intro part member
    rcases List.mem_append.mp member with inFront | atEnd
    · exact each part (List.mem_append_left _ inFront)
    · obtain rfl := List.mem_singleton.mp atEnd
      exact (each last (by simp)).pad_right spaces
  have stands := Stands.list (by simp) padded
  rw [List.map_append, List.map_singleton, joinWith_append_last] at stands
  simpa using stands

/-- The member with spaces behind its value. -/
def MemberText.closing (m : MemberText) (spaces : Text) : MemberText where
  before := m.before
  body := m.body
  between := m.between
  text := m.text ++ spaces
  name := m.name
  value := m.value
  spaces := m.spaces
  spelled := m.spelled

theorem Stands.record_spaced {members : List MemberText} (filled : members ≠ [])
    (each : ∀ m ∈ members, Stands m.text m.value) (spaces : ∀ c ∈ u, isSpace c = true) :
    Stands (.char '\x7b' :: (joinWith [.char ','] (members.map MemberText.written) ++ u ++
      [.char '\x7d'])) (.record (Table.ofList (members.map MemberText.entry))) := by
  obtain ⟨front, last, rfl⟩ := (List.eq_nil_or_concat members).resolve_left filled
  rw [List.concat_eq_append] at each ⊢
  have padded : ∀ m ∈ front ++ [last.closing u], Stands m.text m.value := by
    intro m member
    rcases List.mem_append.mp member with inFront | atEnd
    · exact each m (List.mem_append_left _ inFront)
    · obtain rfl := List.mem_singleton.mp atEnd
      exact (each last (by simp)).pad_right spaces
  have written : (last.closing u).written = last.written ++ u := by
    simp [MemberText.written, MemberText.closing]
  have entry : (last.closing u).entry = last.entry := rfl
  have stands := Stands.record (by simp) padded
  rw [List.map_append, List.map_singleton, written, joinWith_append_last, List.map_append,
    List.map_singleton, entry] at stands
  simpa using stands

/-! ### Written parts -/

/-- The items of a list, each on a line of its own. -/
theorem writeItems_eq (level : Nat) (item : Json) (items : List Json) :
    newLine level ++ writeAt level item ++ writeItems level items =
      joinWith [.char ','] ((item :: items).map fun i => newLine level ++ writeAt level i) := by
  induction items generalizing item with
  | nil => rw [writeItems, List.append_nil]; rfl
  | cons next items ih =>
    have later := ih next
    rw [List.map_cons] at later
    rw [List.map_cons, List.map_cons, joinWith_cons_cons, ← later, writeItems]
    simp

/-- A member on a line of its own. -/
def lineOf (level : Nat) (m : Text × Json) : Text :=
  newLine level ++ stringText m.1 ++ ": ".toText ++ writeAt level m.2

theorem writeMembers_eq (level : Nat) (m : Text × Json) (members : List (Text × Json)) :
    lineOf level m ++ writeMembers level members =
      joinWith [.char ','] ((m :: members).map (lineOf level)) := by
  induction members generalizing m with
  | nil => rw [writeMembers, List.append_nil]; rfl
  | cons next members ih =>
    obtain ⟨name, value⟩ := next
    have later := ih (name, value)
    rw [List.map_cons] at later
    rw [List.map_cons, List.map_cons, joinWith_cons_cons, ← later, writeMembers]
    simp [lineOf]

theorem Stands.stringText {t : Text} (whole : t.IsWhole) : Stands (stringText t) (.text t) :=
  .text (denotes_escaped whole)

/-- Members whose values stand in their lines. -/
theorem exists_lines (whole : ∀ m ∈ members, m.1.IsWhole)
    (each : ∀ m ∈ members, Stands (writeAt level m.2) m.2) :
    ∃ lines : List MemberText, (∀ m ∈ lines, Stands m.text m.value) ∧
      lines.map MemberText.written = members.map (lineOf level) ∧
      lines.map MemberText.entry = members := by
  induction members with
  | nil => exact ⟨[], nofun, rfl, rfl⟩
  | cons m members ih =>
    obtain ⟨name, names⟩ := List.forall_mem_cons.mp whole
    obtain ⟨first, others⟩ := List.forall_mem_cons.mp each
    obtain ⟨lines, stands, written, entries⟩ := ih names others
    let line : MemberText :=
      { before := newLine level, body := m.1.flatMap escapeChar, between := []
        text := .char ' ' :: writeAt level m.2, name := m.1, value := m.2
        spaces := fun c member => isSpace_of_mem_newLine level c (by simpa using member)
        spelled := denotes_escaped name }
    refine ⟨line :: lines, List.forall_mem_cons.mpr ⟨.spaceBefore rfl first, stands⟩, ?_, ?_⟩
    · rw [List.map_cons, List.map_cons, written]
      simp [line, MemberText.written, lineOf, Json.stringText, String.toText]
    · rw [List.map_cons, entries]
      rfl

/-! ### Documents -/

/-- What is written of a document stands for it. -/
theorem Readable.stands (readable : Readable j) (level : Nat) : Stands (writeAt level j) j := by
  induction readable generalizing level with
  | null => exact .atom rfl
  | bool b => cases b <;> exact .atom rfl
  | int short =>
    rw [writeAt]
    exact .atom (readAtom_intText short)
  | text whole =>
    rw [writeAt]
    exact .stringText whole
  | @list items _ ih =>
    cases items with
    | nil => exact .noItems (t := []) nofun
    | cons item items =>
      have each : ∀ part ∈ (item :: items).map fun i =>
          (newLine (level + 1) ++ writeAt (level + 1) i, i), Stands part.1 part.2 := by
        rintro part member
        obtain ⟨i, listed, rfl⟩ := List.mem_map.mp member
        exact (ih i listed (level + 1)).pad_left (isSpace_of_mem_newLine _)
      have stands := Stands.list_spaced (by simp) each (isSpace_of_mem_newLine level)
      have items' := writeItems_eq (level + 1) item items
      simp only [List.map_map, Function.comp_def, List.map_id'] at stands
      rw [← items'] at stands
      rw [writeAt]
      simpa using stands
  | @record members distinct whole _ ih =>
    cases members with
    | nil => exact .noMembers (t := []) nofun
    | cons m members =>
      obtain ⟨name, value⟩ := m
      have values : ∀ m ∈ (name, value) :: members, Stands (writeAt (level + 1) m.2) m.2 :=
        fun m listed => ih m listed (level + 1)
      obtain ⟨lines, each, written, entries⟩ := exists_lines whole values
      have filled : lines ≠ [] := by
        rintro rfl
        cases entries
      have stands := Stands.record_spaced filled each (isSpace_of_mem_newLine level)
      rw [written, entries, Table.ofList_of_nodup distinct, ← writeMembers_eq, lineOf] at stands
      rw [writeAt]
      simpa using stands

/-- A document is read back from its written form and spaces behind it. -/
theorem read_write (readable : Readable j) (spaces : ∀ c ∈ u, isSpace c = true) :
    read (write j ++ u) = .ok j :=
  read_eq_ok_iff.mpr ((readable.stands 0).pad_right spaces)

end GuardedConsole.Json
