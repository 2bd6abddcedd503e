import GuardedConsole.Proofs.Json.Grammar
import GuardedConsole.Proofs.Literal.Objects

/-!
# Objects of several entries as JSON

The text of an object is rewritten entry by entry, so that if each entry alone is JSON then so is the
whole, with the members of all of them (`exists_members`). If an entry alone leaves a member under its
key and drops the others, then these are the members that all of them leave together
(`keptEntries_flatMap`).
-/

namespace GuardedConsole.Literal

open Text Json

/-- The text is read as JSON, and not entry by entry. -/
def IsJson (t : Text) : Prop :=
  ∃ members, Json.read (asJson t) = .ok (.record members)

/-- The entry as it is tried as JSON. -/
def Entry.rewritten (e : Entry) : Text :=
  .char '"' :: (e.key ++ .char '"' :: .char ':' :: .char ' ' :: asJson e.text)

variable {e : Entry} {es : List Entry} {c : CodePoint} {t : Text}

theorem Entry.asJson_written (e : Entry) : asJson e.written = e.rewritten := by
  obtain ⟨filled, words⟩ := e.words
  have whole : e.written = e.key ++ .char ':' :: .char ' ' :: e.text := by
    simp [written, String.toText]
  rw [whole, asJson_key words filled, asJson_cons (by decide) (by decide) (by decide), rewritten]

theorem asJson_joinWith (es : List Entry) :
    asJson (joinWith ", ".toText (es.map Entry.written)) =
      joinWith ", ".toText (es.map Entry.rewritten) := by
  rw [asJson_joinWith_parts, List.map_map]
  exact congrArg _ (List.map_congr_left fun e _ => e.asJson_written)

theorem asJson_literalText (es : List Entry) :
    asJson (literalText es) =
      .char '\x7b' :: (joinWith ", ".toText (es.map Entry.rewritten) ++ [.char '\x7d']) := by
  have whole : literalText es =
      .char '\x7b' :: (joinWith ", ".toText (es.map Entry.written) ++ [.char '\x7d']) := rfl
  rw [whole, asJson_cons (by decide) (by decide) (by decide),
    asJson_append (by decide) (by decide) (by decide), asJson_joinWith]
  rfl

/-- The members that the rewritten entry stands for. -/
structure Entry.Splits (e : Entry) (members : List MemberText) : Prop where
  filled : members ≠ []
  stands : ∀ m ∈ members, Stands m.text m.value
  same : e.rewritten = joinWith [.char ','] (members.map MemberText.written)

theorem read_entry_iff {all : Table Json} :
    Json.read (asJson (literalText [e])) = .ok (.record all) ↔
      ∃ members, e.Splits members ∧ all = Table.ofList (members.map MemberText.entry) := by
  rw [asJson_literalText, read_eq_ok_iff, stands_braces_iff]
  constructor
  · rintro (⟨spaces, _⟩ | ⟨members, filled, stands, same, ⟨rfl⟩⟩)
    · exact absurd (spaces (.char '"') List.mem_cons_self) (by decide)
    · exact ⟨members, ⟨filled, stands, same⟩, rfl⟩
  · rintro ⟨members, ⟨filled, stands, same⟩, rfl⟩
    exact .inr ⟨members, filled, stands, same, rfl⟩

/-- Entries that each stand for members stand together for all of these. -/
theorem exists_members {members : Entry → List MemberText} (filled : es ≠ [])
    (splits : ∀ e ∈ es, e.Splits (members e)) :
    ∃ all : List MemberText, all ≠ [] ∧ (∀ m ∈ all, Stands m.text m.value) ∧
      joinWith ", ".toText (es.map Entry.rewritten) =
        joinWith [.char ','] (all.map MemberText.written) ∧
      all.map MemberText.entry = es.flatMap fun e => (members e).map MemberText.entry := by
  induction es with
  | nil => exact (filled rfl).elim
  | cons e es ih =>
    obtain ⟨⟨filled', stands, same⟩, others⟩ := List.forall_mem_cons.mp splits
    cases es with
    | nil => exact ⟨members e, filled', stands, same, by simp⟩
    | cons next es =>
      obtain ⟨all, some, each, whole, names⟩ := ih (List.cons_ne_nil _ _) others
      obtain ⟨first, all, rfl⟩ := List.exists_cons_of_ne_nil some
      obtain ⟨here, later⟩ := List.forall_mem_cons.mp each
      -- the space behind the comma goes to the member that follows it
      have blank : ∀ c ∈ [CodePoint.char ' '], isSpace c = true := by decide
      refine ⟨members e ++ first.padded [.char ' '] blank :: all,
        List.append_ne_nil_of_left_ne_nil filled' _, ?_, ?_, ?_⟩
      · intro m member
        rcases List.mem_append.mp member with inFirst | inOthers
        · exact stands m inFirst
        · rcases List.mem_cons.mp inOthers with rfl | behind
          · exact here
          · exact later m behind
      · have joined : joinWith ", ".toText ((e :: next :: es).map Entry.rewritten) =
            e.rewritten ++ [.char ',', .char ' '] ++
              joinWith ", ".toText ((next :: es).map Entry.rewritten) := rfl
        have filledText : (members e).map MemberText.written ≠ [] :=
          fun empty => filled' (List.map_eq_nil_iff.mp empty)
        have some : (first.padded [.char ' '] blank :: all).map MemberText.written ≠ [] :=
          List.cons_ne_nil _ _
        rw [joined, same, whole, List.map_append, joinWith_append filledText some,
          joinWith_padded]
        simp
      · rw [List.map_append, List.flatMap_cons, ← names]
        rfl

/-! ### Members that are not dropped -/

variable {α : Type} {known : Table α}

/-- The entries whose names are not dropped. -/
def keptEntries (table : Table α) : Table α :=
  table.filter fun entry => !entry.1.isDangerous

theorem keptEntries_ofList (entries : List (Text × α)) :
    keptEntries (Table.ofList entries) = Table.putAll [] (keptEntries entries) :=
  Table.filter_putAll (fun name => !name.isDangerous) [] entries

/-- What is read of an object that is JSON: the members that are not dropped, cleaned. -/
theorem sanitize_record (table : Table Json) :
    (Value.ofJson (.record table)).sanitize =
      .dict ((keptEntries table).map fun entry =>
        (.text entry.1, (Value.ofJson entry.2).sanitizeItem)) := by
  have members : Value.sanitizeEntries (Value.ofMembers table) =
      (keptEntries table).map fun entry =>
        (.text entry.1, (Value.ofJson entry.2).sanitizeItem) := by
    induction table with
    | nil => rfl
    | cons entry table ih =>
      have shown : Value.isDangerousKey (.text entry.1) = entry.1.isDangerous := rfl
      rw [Value.ofMembers, Value.sanitizeEntries, shown, ih, keptEntries]
      cases dropped : entry.1.isDangerous <;> simp [keptEntries, dropped]
  rw [Value.ofJson, Value.sanitize, members]

/-- Members of entries, each of which alone leaves only its key, together leave the keys of all. -/
theorem keptEntries_flatMap {members : Entry → List (Text × α)}
    (alone : ∀ e ∈ es, (keptEntries (Table.ofList (members e))).names = [e.key])
    (distinct : (known.names ++ es.map Entry.key).Nodup) :
    known.putAll (keptEntries (es.flatMap members)) =
      known ++ es.flatMap fun e => keptEntries (Table.ofList (members e)) := by
  induction es generalizing known with
  | nil => simp [keptEntries, Table.putAll]
  | cons e es ih =>
    obtain ⟨only, others⟩ := List.forall_mem_cons.mp alone
    have new : ∀ entry ∈ keptEntries (members e), entry.1 ∉ known.names := by
      intro entry listed inKnown
      have named : entry.1 ∈ (keptEntries (Table.ofList (members e))).names := by
        rw [keptEntries_ofList]
        exact Table.mem_names_putAll (.inl listed)
      rw [only, List.mem_singleton] at named
      exact (List.nodup_append.mp distinct).2.2 _ inKnown _ List.mem_cons_self named
    have behind := Table.putAll_append new []
    rw [List.append_nil, ← keptEntries_ofList] at behind
    have apart : ((known ++ keptEntries (Table.ofList (members e))).names ++ es.map Entry.key).Nodup := by
      have split : (known ++ keptEntries (Table.ofList (members e))).names = known.names ++ [e.key] := by
        rw [← only, Table.names, List.map_append]
        rfl
      rw [split]
      simpa using distinct
    have split : keptEntries (members e ++ es.flatMap members) =
        keptEntries (members e) ++ keptEntries (es.flatMap members) :=
      List.filter_append ..
    rw [List.flatMap_cons, split, Table.putAll_append_right, behind, ih others apart,
      List.flatMap_cons, List.append_assoc]

end GuardedConsole.Literal
