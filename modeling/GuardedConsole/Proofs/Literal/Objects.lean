import GuardedConsole.Proofs.Json.Members
import GuardedConsole.Proofs.Literal.BareKeys
import GuardedConsole.Proofs.Literal.Fields

/-!
# Reading written objects

An object is tried as JSON first, on a text in which bare keys are quoted and apostrophes replaced
also inside its values. `values_of_read` says for which values JSON can accept that text, and
`read_rewritten` what it reads if no value was changed. `read_written_object` concludes when a written
object is read as its keys and values, and `read_intruding` shows that it need not be.
-/

namespace GuardedConsole.Literal

open Text Argument Json

/-! ### The text that is tried as JSON -/

/-- The entry with its key in quotes and its value rewritten. -/
def Field.rewritten (f : Field) : Text :=
  "\"".toText ++ f.key ++ "\": \"".toText ++ asJson f.value ++ "\"".toText

/-- What stands behind the first entry. -/
def closing (write : Field → Text) : List Field → Text
  | [] => [.char '\x7d']
  | f :: fs => .char ',' :: .char ' ' :: (write f ++ closing write fs)

variable {f : Field} {fs : List Field} {t : Text}

theorem objectText_cons (write : Field → Text) (f : Field) (fs : List Field) :
    objectText write (f :: fs) = .char '\x7b' :: (write f ++ closing write fs) := by
  have joined : joinWith ", ".toText ((f :: fs).map write) ++ "\x7d".toText =
      write f ++ closing write fs := by
    induction fs generalizing f with
    | nil => rfl
    | cons g fs ih =>
      rw [List.map_cons, List.map_cons, joinWith_cons_cons, List.append_assoc, ← List.map_cons,
        ih g, List.append_assoc]
      rfl
  rw [objectText, List.append_assoc, joined]
  rfl

theorem Field.text_append (f : Field) (t : Text) :
    f.text ++ t =
      f.key ++ .char ':' :: .char ' ' :: .char '"' :: (f.value ++ .char '"' :: t) := by
  simp [text, String.toText]

theorem Field.rewritten_append (f : Field) (t : Text) :
    f.rewritten ++ t = .char '"' :: (f.key ++ .char '"' :: .char ':' :: .char ' ' :: .char '"' ::
      (asJson f.value ++ .char '"' :: t)) := by
  simp [rewritten, String.toText]

theorem asJson_text (f : Field) (t : Text) : asJson (f.text ++ t) = f.rewritten ++ asJson t := by
  obtain ⟨filled, words⟩ := f.words
  have value : asJson (f.value ++ .char '"' :: t) = asJson f.value ++ .char '"' :: asJson t :=
    asJson_append (by decide) (by decide) (by decide) f.value t
  rw [f.text_append, f.rewritten_append, asJson_key words filled,
    asJson_cons (by decide) (by decide) (by decide), asJson_cons (by decide) (by decide) (by decide),
    value]

theorem asJson_closing (fs : List Field) :
    asJson (closing Field.text fs) = closing Field.rewritten fs := by
  induction fs with
  | nil => rfl
  | cons f fs ih =>
    rw [closing, asJson_cons (by decide) (by decide) (by decide),
      asJson_cons (by decide) (by decide) (by decide), asJson_text, ih, closing]

theorem asJson_objectText (f : Field) (fs : List Field) :
    asJson (objectText Field.text (f :: fs)) = objectText Field.rewritten (f :: fs) := by
  rw [objectText_cons, objectText_cons, asJson_cons (by decide) (by decide) (by decide), asJson_text,
    asJson_closing]

/-! ### Quotes of the rewritten text -/

/-- Inside quotes, the next key or the end comes too early. -/
theorem pairsQuotes_closing (fs : List Field) :
    pairsQuotes true (closing Field.rewritten fs) = false := by
  cases fs with
  | nil => rfl
  | cons f fs =>
    obtain ⟨filled, words⟩ := f.words
    obtain ⟨first, key, split⟩ := List.exists_cons_of_ne_nil filled
    have word := words first (by rw [split]; exact List.mem_cons_self)
    rw [closing, pairsQuotes_cons (by decide), pairsQuotes_cons (by decide), f.rewritten_append,
      pairsQuotes_close, split]
    simp [beginsWord, word]

theorem paired_value (paired : pairsQuotes false (f.rewritten ++ t) = true)
    (closed : pairsQuotes true t = false) :
    (asJson f.value).count (.char '"') % 2 = 0 ∧
      (∃ tail, pairsQuotes true (asJson f.value ++ tail) = true) ∧ pairsQuotes false t = true := by
  have noQuote : .char '"' ∉ f.key := not_mem_of_words f.words.2 rfl
  -- the key is passed, and the value opened
  rw [f.rewritten_append, pairsQuotes_open, pairsQuotes_append noQuote, pairsQuotes_close] at paired
  obtain ⟨_, inValue⟩ := Bool.and_eq_true_iff.mp paired
  rw [pairsQuotes_cons (by decide), pairsQuotes_cons (by decide), pairsQuotes_open] at inValue
  have behind := pairsQuotes_of_append inValue
  have even : (asJson f.value).count (.char '"') % 2 = 0 := by
    by_contra odd
    rw [if_neg odd, Bool.not_true, pairsQuotes_open, closed] at behind
    cases behind
  rw [if_pos even, pairsQuotes_close] at behind
  exact ⟨even, ⟨_, inValue⟩, (Bool.and_eq_true_iff.mp behind).2⟩

/-- If the quotes of the rewritten text are in pairs, then each value holds an even number of them. -/
theorem paired_values (paired : pairsQuotes false (f.rewritten ++ closing Field.rewritten fs) = true) :
    ∀ g ∈ f :: fs, (asJson g.value).count (.char '"') % 2 = 0 ∧
      ∃ tail, pairsQuotes true (asJson g.value ++ tail) = true := by
  induction fs generalizing f with
  | nil =>
    obtain ⟨even, opened, _⟩ := paired_value paired (pairsQuotes_closing [])
    exact List.forall_mem_singleton.mpr ⟨even, opened⟩
  | cons g fs ih =>
    obtain ⟨even, opened, later⟩ := paired_value paired (pairsQuotes_closing (g :: fs))
    rw [closing, pairsQuotes_cons (by decide), pairsQuotes_cons (by decide)] at later
    exact List.forall_mem_cons.mpr ⟨⟨even, opened⟩, ih later⟩

theorem noBackslash_rewritten (f : Field) (fs : List Field) :
    .char '\\' ∉ objectText Field.rewritten (f :: fs) := by
  rw [← asJson_objectText]
  intro member
  rcases mem_asJson member with quote | inText
  · exact absurd quote (by decide)
  · simp only [objectText, List.mem_append] at inText
    rcases inText with (opening | inEntries) | closing
    · exact absurd opening (by decide)
    · rcases mem_joinWith inEntries with separator | ⟨_, listed, inEntry⟩
      · exact absurd separator (by decide)
      · obtain ⟨g, _, rfl⟩ := List.mem_map.mp listed
        simp only [Field.text, List.mem_append] at inEntry
        rcases inEntry with ((inKey | mark) | inValue) | mark
        · exact not_mem_of_words g.words.2 rfl inKey
        · exact absurd mark (by decide)
        · exact (g.plain _ inValue).2.1 rfl
        · exact absurd mark (by decide)
    · exact absurd closing (by decide)

/-- If the rewritten text is JSON, every value has an even number of apostrophes, and one that has
none is left as it is. -/
theorem values_of_read {j : Json} (read : Json.read (objectText Field.rewritten fs) = .ok j) :
    ∀ g ∈ fs, g.value.count (.char '\'') % 2 = 0 ∧
      (.char '\'' ∉ g.value → asJson g.value = g.value) := by
  cases fs with
  | nil => exact List.forall_mem_nil _
  | cons f fs =>
    have paired := pairsQuotes_of_read (noBackslash_rewritten f fs) read
    rw [objectText_cons, pairsQuotes_cons (by decide)] at paired
    intro g member
    obtain ⟨even, tail, opened⟩ := paired_values paired g member
    have noQuote : .char '"' ∉ g.value := fun inside => (g.plain _ inside).1 rfl
    rw [count_asJson noQuote] at even
    exact ⟨even, fun noApostrophe => asJson_eq_self noQuote noApostrophe opened⟩

/-! ### JSON without rewritten values -/

theorem skipSpace_rewritten (f : Field) (t : Text) :
    skipSpace (f.rewritten ++ t) = f.rewritten ++ t := by
  rw [f.rewritten_append]
  rfl

/-- A member whose value was not rewritten is read as its key and value, and reading ends or goes on
behind it. -/
theorem readMembers_rewritten {fuel : Nat} {known all : List (Text × Json)} {rest : Text}
    (same : asJson f.value = f.value)
    (read : readMembers fuel known (f.rewritten ++ t) = .ok (all, rest)) :
    ∃ fuel', (∀ after, skipSpace t = .char '\x7d' :: after →
        all = Table.put f.key (.text f.value) known) ∧
      ∀ after, skipSpace t = .char ',' :: after →
        readMembers fuel' (Table.put f.key (.text f.value) known) (skipSpace after) =
          .ok (all, rest) := by
  rw [f.rewritten_append, same] at read
  refine readMembers_member (not_mem_of_words f.words.2 rfl) (not_mem_of_words f.words.2 rfl) ?_ read
  intro fuel j rest value _
  exact readValue_quoted f.noQuote.1 f.noQuote.2 value

/-- Members that are read are the keys and values, if no value was rewritten. -/
theorem readMembers_eq {fuel : Nat} {known all : Table Json} {rest : Text}
    (same : ∀ g ∈ f :: fs, asJson g.value = g.value)
    (distinct : (known.names ++ (f :: fs).map Field.key).Nodup)
    (read : readMembers fuel known (f.rewritten ++ closing Field.rewritten fs) = .ok (all, rest)) :
    all = known ++ (f :: fs).map fun g => (g.key, .text g.value) := by
  induction fs generalizing f known fuel with
  | nil =>
    obtain ⟨put, _⟩ := put_distinct distinct (Json.text f.value)
    obtain ⟨_, ends, _⟩ := readMembers_rewritten (same f List.mem_cons_self) read
    rw [ends _ rfl, put]
    rfl
  | cons g fs ih =>
    obtain ⟨put, distinct'⟩ := put_distinct distinct (Json.text f.value)
    obtain ⟨fuel', _, goesOn⟩ := readMembers_rewritten (same f List.mem_cons_self) read
    have later := goesOn _ rfl
    have space (u : Text) : skipSpace (.char ' ' :: u) = skipSpace u := rfl
    rw [put, space, skipSpace_rewritten] at later
    rw [ih (fun h member => same h (List.mem_cons_of_mem f member)) distinct' later]
    simp

/-- A record that is read from the rewritten text has the keys and values, if no value was rewritten.
-/
theorem read_rewritten {members : Table Json} (same : ∀ g ∈ fs, asJson g.value = g.value)
    (filled : fs ≠ []) (distinct : (fs.map Field.key).Nodup)
    (read : Json.read (objectText Field.rewritten fs) = .ok (.record members)) :
    members = fs.map fun g => (g.key, .text g.value) := by
  obtain ⟨f, fs, rfl⟩ := List.exists_cons_of_ne_nil filled
  rw [objectText_cons, f.rewritten_append] at read
  obtain ⟨_, _, _, ⟨rfl⟩, all⟩ := readMembers_of_read read
  rw [← f.rewritten_append] at all
  have start : (Table.names ([] : Table Json) ++ (f :: fs).map Field.key).Nodup := distinct
  exact readMembers_eq same start all

/-! ### Reading a written object -/

theorem ofJson_record (fs : List Field) :
    Value.ofJson (.record (fs.map fun g => (g.key, .text g.value))) = objectValue fs := by
  have members : Value.ofMembers (fs.map fun g => (g.key, .text g.value)) =
      fs.map fun g => (.text g.key, .text g.value) := by
    induction fs with
    | nil => rfl
    | cons f fs ih => rw [List.map_cons, Value.ofMembers, ih, Value.ofJson, List.map_cons]
  rw [Value.ofJson, members, objectValue]

theorem readWith_brace (value : Text → Except Failure Value) (now : Time.Moment) (t : Text) :
    readWith value now (.char '\x7b' :: t) = readObject value (.char '\x7b' :: t) := by
  have noKeyword : keywords.find? (.char '\x7b' :: t) = none := find?_keywords_eq_none rfl rfl
  have unquoted : quotedContent? (.char '\x7b' :: t) = none := quotedContent?_eq_none rfl rfl
  have noNumeral : Number.Numeral.read? (.char '\x7b' :: t) = none := rfl
  have noDate : dateExpression? (.char '\x7b' :: t) = none := by
    rw [dateExpression?, if_neg]
    rintro ⟨start, _⟩
    cases start
  rw [readWith, noKeyword, unquoted, noNumeral, noDate]

/-- An object is read with its values read as literals. -/
theorem read_brace (now : Time.Moment) (t : Text) :
    read now (.char '\x7b' :: t) = readObject (read now) (.char '\x7b' :: t) := by
  rw [read, readNested, readWith_brace]
  exact readObject_congr (List.cons_ne_nil _ _) fun _ shorter => readNested_eq_read shorter

theorem read_of_json {members : Table Json} (now : Time.Moment)
    (accepted : Json.read (asJson (.char '\x7b' :: t)) = .ok (.record members)) :
    read now (.char '\x7b' :: t) = .ok (Value.ofJson (.record members)).sanitize := by
  rw [asJson] at accepted
  rw [read, readNested, readWith_brace, readObject, accepted]

/-- A written object is read as JSON, or else entry by entry, which gives its keys and values. -/
theorem read_objectText (now : Time.Moment) (filled : fs ≠ []) (distinct : (fs.map Field.key).Nodup) :
    read now (objectText Field.text fs) =
      match Json.read (objectText Field.rewritten fs) with
      | .ok (.record members) => .ok (Value.ofJson (.record members)).sanitize
      | _ => .ok (objectValue fs) := by
  obtain ⟨f, fs, rfl⟩ := List.exists_cons_of_ne_nil filled
  have texts (g : Field) : readNested now (objectText Field.text (f :: fs)).length
      (inQuotes g.value) = .ok (.text g.value) := by
    rw [objectText_cons, List.length_cons]
    exact readNested_inQuotes now _ g
  have started : read now (objectText Field.text (f :: fs)) =
      readObject (readNested now (objectText Field.text (f :: fs)).length)
        (objectText Field.text (f :: fs)) := by
    obtain ⟨t, split⟩ : ∃ t, objectText Field.text (f :: fs) = .char '\x7b' :: t :=
      ⟨_, objectText_cons Field.text f fs⟩
    rw [read, readNested, split]
    exact readWith_brace _ now t
  have tried : straightQuotes (quoteBareKeys [] (objectText Field.text (f :: fs))) =
      objectText Field.rewritten (f :: fs) := asJson_objectText f fs
  have cleaned : Except.ok (objectValue (f :: fs)).sanitize =
      (.ok (objectValue (f :: fs)) : Except Failure Value) :=
    congrArg Except.ok (sanitize_objectValue _)
  rw [started, readObject, tried, readLoosely_objectText texts distinct]
  rcases Json.read (objectText Field.rewritten (f :: fs)) with _ | j
  · exact cleaned
  · cases j with
    | record members => rfl
    | _ => exact cleaned

/-- A written object is read as exactly its keys and values, in order, unless JSON accepts the text in
which its bare keys are quoted and its apostrophes replaced; then it is read as that record. JSON
accepts no such text if some value has an odd number of apostrophes, and what it accepts has the same
keys and values if there are none. -/
theorem read_written_object (now : Time.Moment) (fields : List Field) (filled : fields ≠ [])
    (distinct : (fields.map Field.key).Nodup) :
    ((∀ members, Json.read (asJson (objectText Field.text fields)) ≠ .ok (.record members)) →
      read now (objectText Field.text fields) = .ok (objectValue fields)) ∧
    (∀ members, Json.read (asJson (objectText Field.text fields)) = .ok (.record members) →
      read now (objectText Field.text fields) = .ok (Value.ofJson (.record members)).sanitize) ∧
    ((∃ f ∈ fields, f.value.count (.char '\'') % 2 = 1) →
      read now (objectText Field.text fields) = .ok (objectValue fields)) ∧
    ((∀ f ∈ fields, .char '\'' ∉ f.value) →
      read now (objectText Field.text fields) = .ok (objectValue fields)) := by
  have tried : asJson (objectText Field.text fields) = objectText Field.rewritten fields := by
    obtain ⟨f, fs, rfl⟩ := List.exists_cons_of_ne_nil filled
    exact asJson_objectText f fs
  have read_eq := read_objectText now filled distinct
  have refused (no : ∀ members, Json.read (asJson (objectText Field.text fields)) ≠
      .ok (.record members)) : read now (objectText Field.text fields) = .ok (objectValue fields) := by
    rw [read_eq, ← tried]
    split
    · rename_i members accepted
      exact (no members accepted).elim
    · rfl
  have accepted (members : Table Json) (accepted : Json.read (asJson (objectText Field.text fields)) =
      .ok (.record members)) : read now (objectText Field.text fields) =
        .ok (Value.ofJson (.record members)).sanitize := by
    rw [read_eq, ← tried, accepted]
  refine ⟨refused, accepted, ?_, ?_⟩
  · rintro ⟨f, member, odd⟩
    refine refused fun members read => ?_
    rw [tried] at read
    rw [(values_of_read read f member).1] at odd
    cases odd
  · intro noApostrophe
    by_cases some : ∃ members, Json.read (asJson (objectText Field.text fields)) =
        .ok (.record members)
    · obtain ⟨members, read⟩ := some
      rw [accepted members read]
      rw [tried] at read
      have same : ∀ g ∈ fields, asJson g.value = g.value := fun g member =>
        (values_of_read read g member).2 (noApostrophe g member)
      rw [read_rewritten same filled distinct read, ofJson_record, sanitize_objectValue]
    · exact refused fun members read => some ⟨members, read⟩

/-- An entry whose value has an apostrophe, and one whose value looks like entries. -/
def reminder : List Field :=
  [{ key := "title".toText, value := "it's here".toText, named := by decide, kept := by decide
     plain := by decide },
   { key := "note".toText, value := "at: 5, \x7bb: 6\x7d".toText, named := by decide
     kept := by decide, plain := by decide }]

theorem read_written_reminder :
    objectText Field.text reminder =
        "\x7btitle: \"it's here\", note: \"at: 5, \x7bb: 6\x7d\"\x7d".toText ∧
      read ⟨0, none, by decide⟩ (objectText Field.text reminder) =
        .ok (.dict [(.text "title".toText, .text "it's here".toText),
          (.text "note".toText, .text "at: 5, \x7bb: 6\x7d".toText)]) := by
  refine ⟨by decide +kernel, ?_⟩
  obtain ⟨_, _, odd, _⟩ :=
    read_written_object ⟨0, none, by decide⟩ reminder (List.cons_ne_nil _ _) (by decide)
  exact odd ⟨_, List.mem_cons_self, by decide⟩

/-- An entry whose value has two apostrophes. -/
def intruding : Field where
  key := "a".toText
  value := "', b: '".toText
  named := by decide
  kept := by decide
  plain := by decide

/-- A text inside a value can add a key and take the place of the value. -/
theorem read_intruding :
    objectText Field.text [intruding] = "\x7ba: \"', b: '\"\x7d".toText ∧
      read ⟨0, none, by decide⟩ (objectText Field.text [intruding]) =
        .ok (.dict [(.text "a".toText, .text []), (.text "b".toText, .text [])]) ∧
      read ⟨0, none, by decide⟩ (objectText Field.text [intruding]) ≠
        .ok (objectValue [intruding]) := by
  have accepted : Json.read (objectText Field.rewritten [intruding]) =
      .ok (.record [("a".toText, .text []), ("b".toText, .text [])]) := by
    cbv
  have result : read ⟨0, none, by decide⟩ (objectText Field.text [intruding]) =
      .ok (.dict [(.text "a".toText, .text []), (.text "b".toText, .text [])]) := by
    rw [read_objectText _ (List.cons_ne_nil _ _) (by decide), accepted]
    rfl
  refine ⟨by decide +kernel, result, ?_⟩
  rw [result, objectValue]
  intro same
  simp at same

end GuardedConsole.Literal
