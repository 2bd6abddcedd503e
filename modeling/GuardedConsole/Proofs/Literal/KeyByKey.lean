import GuardedConsole.Proofs.Literal.Siblings

/-!
# Objects key by key

An object whose entries are all JSON is read as the combination of what its entries are read as alone
(`read_of_each_isJson`). Any other is read entry by entry, which agrees where JSON and the reading of
arguments do (`read_of_not_isJson`). `read_key_by_key` puts the two together, and
`read_beside_undefined` shows a value that depends on its sibling.
-/

namespace GuardedConsole.Literal

open Text Argument Json

variable {t : Text} {es : List Entry} {entries : List (Entry × Value)} {now : Time.Moment}

theorem literalText_eq (es : List Entry) :
    literalText es =
      .char '\x7b' :: (joinWith ", ".toText (es.map Entry.written) ++ "\x7d".toText) := rfl

/-! ### Entries that are JSON -/

/-- What is read of the members, once those that are dropped are gone. -/
def cleanedMembers (members : List (Text × Json)) : List (Value × Value) :=
  (keptEntries (Table.ofList members)).map fun member =>
    (.text member.1, (Value.ofJson member.2).sanitizeItem)

theorem read_whole {members : Entry → List MemberText} (filled : es ≠ [])
    (splits : ∀ e ∈ es, e.Splits (members e)) :
    Json.read (asJson (literalText es)) =
      .ok (.record (Table.ofList (es.flatMap fun e => (members e).map MemberText.entry))) := by
  obtain ⟨all, some, stands, whole, same⟩ := exists_members filled splits
  rw [asJson_literalText, whole, read_eq_ok_iff, ← same]
  exact .record some stands

theorem read_of_members {members : List (Text × Json)}
    (accepted : Json.read (asJson (literalText es)) = .ok (.record (Table.ofList members))) :
    read now (literalText es) = .ok (.dict (cleanedMembers members)) := by
  rw [literalText_eq] at accepted ⊢
  rw [read_of_json now accepted, sanitize_record, cleanedMembers]

theorem cleaned_of_read_alone {e : Entry} {v : Value} {members : List MemberText}
    (splits : e.Splits members) (alone : read now (literalText [e]) = .ok (combined [(e, v)])) :
    cleanedMembers (members.map MemberText.entry) = [(.text e.key, v)] := by
  have accepted := read_entry_iff.mpr ⟨members, splits, rfl⟩
  rw [read_of_members accepted] at alone
  exact Value.dict.inj (Except.ok.inj alone)

theorem names_of_cleaned {members : List (Text × Json)} {key : Text} {v : Value}
    (cleaned : cleanedMembers members = [(.text key, v)]) :
    (keptEntries (Table.ofList members)).names = [key] := by
  obtain ⟨member, only, shown⟩ := List.map_eq_singleton_iff.mp cleaned
  rw [only, ← Value.text.inj (Prod.mk.inj shown).1]
  rfl

/-- If every entry alone is JSON, so is the object, and it is read as their combination. -/
theorem read_of_each_isJson (filled : entries ≠ [])
    (distinct : (entries.map fun entry => entry.1.key).Nodup)
    (alone : ∀ entry ∈ entries, read now (literalText [entry.1]) = .ok (combined [entry]))
    (each : ∀ entry ∈ entries, IsJson (literalText [entry.1])) :
    IsJson (literalText (entries.map Prod.fst)) ∧
      read now (literalText (entries.map Prod.fst)) = .ok (combined entries) := by
  have stand : ∀ e ∈ entries.map Prod.fst, ∃ members, e.Splits members := by
    refine List.forall_mem_map.mpr fun entry inside => ?_
    obtain ⟨_, accepted⟩ := each entry inside
    obtain ⟨members, splits, _⟩ := read_entry_iff.mp accepted
    exact ⟨members, splits⟩
  choose! members splits using stand
  let raw (e : Entry) : List (Text × Json) := (members e).map MemberText.entry
  have cleaned : ∀ entry ∈ entries, cleanedMembers (raw entry.1) = [(.text entry.1.key, entry.2)] :=
    fun entry inside =>
      cleaned_of_read_alone (splits _ (List.mem_map_of_mem inside)) (alone entry inside)
  have names : ∀ e ∈ entries.map Prod.fst, (keptEntries (Table.ofList (raw e))).names = [e.key] :=
    List.forall_mem_map.mpr fun entry inside => names_of_cleaned (cleaned entry inside)
  have start : (Table.names ([] : Table Json) ++ (entries.map Prod.fst).map Entry.key).Nodup := by
    rwa [List.map_map]
  have kept : keptEntries (Table.ofList ((entries.map Prod.fst).flatMap raw)) =
      (entries.map Prod.fst).flatMap fun e => keptEntries (Table.ofList (raw e)) :=
    (keptEntries_ofList _).trans (keptEntries_flatMap names start)
  have values : cleanedMembers ((entries.map Prod.fst).flatMap raw) =
      entries.map fun entry => (.text entry.1.key, entry.2) := by
    rw [cleanedMembers, kept, List.flatMap_map, List.map_flatMap, List.map_eq_flatMap]
    exact List.flatMap_congr cleaned
  have accepted := read_whole (mt List.map_eq_nil_iff.mp filled) splits
  exact ⟨⟨_, accepted⟩, (read_of_members accepted).trans (by rw [values, combined])⟩

/-! ### Entries that are not JSON -/

theorem read_literalText (now : Time.Moment) (es : List Entry) :
    read now (literalText es) = readObject (read now) (literalText es) :=
  read_brace now _

theorem readObject_of_not_isJson {value : Text → Except Failure Value} (refused : ¬IsJson t) :
    readObject value t =
      match readLoosely value t with
      | .ok v => .ok v.sanitize
      | .error f => .error f := by
  unfold readObject
  split
  · rename_i accepted
    exact (refused ⟨_, accepted⟩).elim
  · rfl

theorem readLoosely_values {value : Entry × Value → Value}
    (distinct : (entries.map fun entry => entry.1.key).Nodup)
    (found : ∀ entry ∈ entries, read now entry.1.text = .ok (value entry)) :
    ∃ v, readLoosely (read now) (literalText (entries.map Prod.fst)) = .ok v ∧
      v.sanitize = combined (entries.map fun entry => (entry.1, (value entry).sanitizeItem)) := by
  let valued := entries.map fun entry => (entry.1, value entry)
  have texts : ∀ entry ∈ valued, read now entry.1.text = .ok entry.2 := by
    intro entry listed
    obtain ⟨first, inside, rfl⟩ := List.mem_map.mp listed
    exact found first inside
  have keys : (valued.map fun entry => entry.1.key).Nodup := by
    rwa [List.map_map]
  have loosely := readLoosely_literalText texts keys
  have cleaned := sanitize_combined valued
  rw [List.map_map] at loosely cleaned
  exact ⟨_, loosely, cleaned⟩

/-- An object that is not JSON is read as the combination of the values exactly if its texts are read
as these, apart from cleaning. -/
theorem read_of_not_isJson (distinct : (entries.map fun entry => entry.1.key).Nodup)
    (refused : ¬IsJson (literalText (entries.map Prod.fst))) :
    read now (literalText (entries.map Prod.fst)) = .ok (combined entries) ↔
      ∀ entry ∈ entries, ∃ v, read now entry.1.text = .ok v ∧ v.sanitizeItem = entry.2 := by
  have inhabited : Nonempty Value := ⟨.null⟩
  rw [read_literalText, readObject_of_not_isJson refused]
  constructor
  · intro decoded
    split at decoded
    · rename_i loosely
      have texts := texts_of_readLoosely loosely
      rw [List.forall_mem_map] at texts
      choose! value found using texts
      obtain ⟨v, again, cleaned⟩ := readLoosely_values distinct found
      cases loosely.symm.trans again
      have same := Value.dict.inj (cleaned.symm.trans (Except.ok.inj decoded))
      rw [List.map_map, List.map_inj_left] at same
      intro entry listed
      exact ⟨value entry, found entry listed, (Prod.mk.inj (same entry listed)).2⟩
    · cases decoded
  · intro texts
    choose! value found clean using texts
    obtain ⟨v, loosely, cleaned⟩ := readLoosely_values distinct found
    have same : (entries.map fun entry => (entry.1, (value entry).sanitizeItem)) = entries.map id :=
      List.map_congr_left fun entry listed => by rw [clean entry listed, id]
    rw [loosely]
    dsimp only
    rw [cleaned, same, List.map_id]

/-! ### Key by key -/

/-- If every entry alone is read as its value and JSON accepts every entry, JSON accepts the object too,
and it is read as their combination. Where JSON refuses the object, it is read as the combination
exactly if the entries that JSON accepts alone have values that are read the same as arguments. JSON
accepts an object of plain entries exactly if it accepts every entry. -/
theorem read_key_by_key (now : Time.Moment) (entries : List (Entry × Value)) (filled : entries ≠ [])
    (distinct : (entries.map fun entry => entry.1.key).Nodup)
    (alone : ∀ entry ∈ entries, read now (literalText [entry.1]) = .ok (combined [entry])) :
    ((∀ entry ∈ entries, IsJson (literalText [entry.1])) →
      IsJson (literalText (entries.map Prod.fst)) ∧
        read now (literalText (entries.map Prod.fst)) = .ok (combined entries)) ∧
    (¬IsJson (literalText (entries.map Prod.fst)) →
      (read now (literalText (entries.map Prod.fst)) = .ok (combined entries) ↔
        ∀ entry ∈ entries, IsJson (literalText [entry.1]) →
          ∃ v, read now entry.1.text = .ok v ∧ v.sanitizeItem = entry.2)) ∧
    ((∀ entry ∈ entries, entry.1.Plain) →
      (IsJson (literalText (entries.map Prod.fst)) ↔
        ∀ entry ∈ entries, IsJson (literalText [entry.1]))) := by
  have agrees (entry : Entry × Value) (listed : entry ∈ entries)
      (refused : ¬IsJson (literalText [entry.1])) :
      ∃ v, read now entry.1.text = .ok v ∧ v.sanitizeItem = entry.2 := by
    have single : ([entry].map fun entry => entry.1.key).Nodup := List.nodup_singleton _
    exact (read_of_not_isJson single refused).mp (alone entry listed) entry List.mem_cons_self
  refine ⟨read_of_each_isJson filled distinct alone, fun refused => ?_,
    fun plain => ⟨fun whole => ?_, fun each => (read_of_each_isJson filled distinct alone each).1⟩⟩
  · rw [read_of_not_isJson distinct refused]
    constructor
    · exact fun same entry listed _ => same entry listed
    · intro same entry listed
      by_cases accepted : IsJson (literalText [entry.1])
      · exact same entry listed accepted
      · exact agrees entry listed accepted
  · intro entry listed
    exact isJson_of_literalText (List.forall_mem_map.mpr plain) whole _ (List.mem_map_of_mem listed)

theorem not_isJson_of_error {failure : Json.ReadError} (refused : Json.read (asJson t) = .error failure) :
    ¬IsJson t := by
  rintro ⟨members, accepted⟩
  rw [refused] at accepted
  cases accepted

/-- An entry that JSON refuses. -/
def dueEntry : Entry where
  key := "due".toText
  text := "undefined".toText
  named := by decide
  kept := by decide
  standalone := standalone_of_calm (by decide) (by decide) (by decide)

theorem not_isJson_due : ¬IsJson (literalText [dueEntry]) := by
  have tried : asJson (literalText [dueEntry]) = "\x7b\"due\": undefined\x7d".toText := rfl
  have refused : Json.read (asJson (literalText [dueEntry])) = .error .malformed := by
    rw [tried]
    cbv
  exact not_isJson_of_error refused

theorem read_due (now : Time.Moment) :
    read now (literalText [dueEntry]) = .ok (combined [(dueEntry, .undefined)]) := by
  have single : ([(dueEntry, Value.undefined)].map fun entry => entry.1.key).Nodup :=
    List.nodup_singleton _
  refine (read_of_not_isJson single not_isJson_due).mpr ?_
  exact List.forall_mem_singleton.mpr ⟨.undefined, rfl, by simp [Value.sanitizeItem]⟩

theorem isName_title : Command.isName "title".toText = true := by decide

theorem not_isDangerous_title : Text.isDangerous "title".toText = false := by decide

/-- An entry that JSON accepts, its text being read the same as an argument. -/
def titleEntry : Entry where
  key := "title".toText
  text := inQuotes "Sync".toText
  named := isName_title
  kept := not_isDangerous_title
  standalone := standalone_inQuotes (by decide)

theorem read_title_and_due :
    literalText [titleEntry, dueEntry] = "\x7btitle: \"Sync\", due: undefined\x7d".toText ∧
      read ⟨0, none, by decide⟩ (literalText [titleEntry, dueEntry]) =
        .ok (.dict [(.text "title".toText, .text "Sync".toText),
          (.text "due".toText, .undefined)]) := by
  have tried : asJson (literalText [titleEntry]) = "\x7b\"title\": \"Sync\"\x7d".toText := rfl
  have accepted : Json.read (asJson (literalText [titleEntry])) =
      .ok (.record [("title".toText, .text "Sync".toText)]) := by
    rw [tried]
    cbv
  have title := read_of_json ⟨0, none, by decide⟩ accepted
  have alone : ∀ entry ∈ [(titleEntry, Value.text "Sync".toText), (dueEntry, .undefined)],
      read ⟨0, none, by decide⟩ (literalText [entry.1]) = .ok (combined [entry]) :=
    List.forall_mem_cons.mpr ⟨title, List.forall_mem_singleton.mpr (read_due _)⟩
  obtain ⟨_, refusing, accepting⟩ := read_key_by_key ⟨0, none, by decide⟩
    [(titleEntry, .text "Sync".toText), (dueEntry, .undefined)] (List.cons_ne_nil _ _) (by decide)
    alone
  have plain : ∀ entry ∈ [(titleEntry, Value.text "Sync".toText), (dueEntry, .undefined)],
      entry.1.Plain :=
    List.forall_mem_cons.mpr ⟨⟨by decide, by decide⟩,
      List.forall_mem_singleton.mpr ⟨by decide, by decide⟩⟩
  have refused : ¬IsJson (literalText [titleEntry, dueEntry]) := fun whole =>
    not_isJson_due ((accepting plain).mp whole (dueEntry, .undefined) (by simp))
  refine ⟨rfl, (refusing refused).mpr ?_⟩
  refine List.forall_mem_cons.mpr ⟨fun _ => ⟨.text "Sync".toText, rfl, ?_⟩,
    List.forall_mem_singleton.mpr fun isJson => (not_isJson_due isJson).elim⟩
  rw [Value.sanitizeItem]
  rfl

theorem isName_note : Command.isName "note".toText = true := by decide

theorem not_isDangerous_note : Text.isDangerous "note".toText = false := by decide

/-- An entry that JSON accepts, its text having an escape that no argument has. -/
def noteEntry : Entry where
  key := "note".toText
  text := inQuotes "a\\nb".toText
  named := isName_note
  kept := not_isDangerous_note
  standalone := standalone_inQuotes (by decide)

/-- The value of an entry can depend on its sibling: only JSON knows the escape. -/
theorem read_beside_undefined :
    (literalText [noteEntry] = "\x7bnote: \"a\\nb\"\x7d".toText ∧
      read ⟨0, none, by decide⟩ (literalText [noteEntry]) =
        .ok (.dict [(.text "note".toText, .text "a\nb".toText)])) ∧
    (literalText [dueEntry] = "\x7bdue: undefined\x7d".toText ∧
      read ⟨0, none, by decide⟩ (literalText [dueEntry]) =
        .ok (.dict [(.text "due".toText, .undefined)])) ∧
    (literalText [noteEntry, dueEntry] = "\x7bnote: \"a\\nb\", due: undefined\x7d".toText ∧
      read ⟨0, none, by decide⟩ (literalText [noteEntry, dueEntry]) =
        .ok (.dict [(.text "note".toText, .text "a\\nb".toText),
          (.text "due".toText, .undefined)])) ∧
    read ⟨0, none, by decide⟩ (literalText [noteEntry, dueEntry]) ≠
      .ok (.dict [(.text "note".toText, .text "a\nb".toText), (.text "due".toText, .undefined)]) := by
  have tried : asJson (literalText [noteEntry]) = "\x7b\"note\": \"a\\nb\"\x7d".toText := rfl
  have accepted : Json.read (asJson (literalText [noteEntry])) =
      .ok (.record [("note".toText, .text "a\nb".toText)]) := by
    rw [tried]
    cbv
  have tried' : asJson (literalText [noteEntry, dueEntry]) =
      "\x7b\"note\": \"a\\nb\", \"due\": undefined\x7d".toText := rfl
  have refused : Json.read (asJson (literalText [noteEntry, dueEntry])) = .error .malformed := by
    rw [tried']
    cbv
  have texts : ∀ entry ∈ [(noteEntry, Value.text "a\\nb".toText), (dueEntry, .undefined)],
      ∃ v, read ⟨0, none, by decide⟩ entry.1.text = .ok v ∧ v.sanitizeItem = entry.2 := by
    refine List.forall_mem_cons.mpr ⟨⟨.text "a\\nb".toText, rfl, ?_⟩,
      List.forall_mem_singleton.mpr ⟨.undefined, rfl, by simp [Value.sanitizeItem]⟩⟩
    rw [Value.sanitizeItem]
    rfl
  have distinct : ([(noteEntry, Value.text "a\\nb".toText), (dueEntry, .undefined)].map
      fun entry => entry.1.key).Nodup := by
    decide
  have mixed := (read_of_not_isJson distinct (not_isJson_of_error refused)).mpr texts
  refine ⟨⟨rfl, read_of_json _ accepted⟩, ⟨rfl, read_due _⟩,
    ⟨rfl, mixed⟩, fun same => ?_⟩
  have entries := Value.dict.inj (Except.ok.inj (mixed.symm.trans same))
  exact absurd (Value.text.inj (Prod.mk.inj (List.cons.inj entries).1).2) (by decide)

end GuardedConsole.Literal
