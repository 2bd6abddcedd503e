import GuardedConsole.Proofs.Literal.Objects
import GuardedConsole.Proofs.Literal.Scalars

/-!
# Flat objects

A flat object is written as keys, bare or in quotes, with scalars behind them; keys may come more than
once. Entry by entry it is always read as the table of its pairs (`readLoosely_flatText`). As JSON it
may be refused, but what is read of it is the record of the same pairs (`record_of_read`). So it does
not matter which of the two reads it: `flatText_read_as_table`.
-/

namespace GuardedConsole.Literal

open Text Argument Json

/-- A key with a scalar. The key is an ASCII word, written bare or in double quotes. -/
structure Pair where
  key : Text
  inQuotes : Bool
  scalar : Scalar
  named : Command.isName key = true

namespace Pair

def keyText (p : Pair) : Text :=
  if p.inQuotes then .char '"' :: (p.key ++ [.char '"']) else p.key

def text (p : Pair) : Text :=
  p.keyText ++ ": ".toText ++ p.scalar.text

def member (p : Pair) : Text × Json :=
  (p.key, p.scalar.document)

def entry (p : Pair) : Text × Value :=
  (p.key, p.scalar.value)

variable (p : Pair)

theorem words : p.key ≠ [] ∧ ∀ c ∈ p.key, isAsciiWord c = true :=
  Command.isName_iff.mp p.named

theorem noQuote : .char '"' ∉ p.key ∧ .char '\\' ∉ p.key :=
  ⟨not_mem_of_words p.words.2 rfl, not_mem_of_words p.words.2 rfl⟩

end Pair

/-- The text of an object with these pairs. -/
def flatText (pairs : List Pair) : Text :=
  "\x7b".toText ++ joinWith ", ".toText (pairs.map Pair.text) ++ "\x7d".toText

variable {p : Pair} {pairs : List Pair} {t : Text} {now : Time.Moment}

/-! ### Entry by entry -/

namespace Pair

theorem standalone_keyText (p : Pair) : Standalone p.keyText := by
  rw [keyText]
  split
  · have standalone : Standalone (Argument.inQuotes p.key) :=
      standalone_inQuotes fun last => p.noQuote.2 (List.mem_of_getLast? last)
    rw [Scalar.inQuotes_eq p.noQuote.1] at standalone
    exact standalone
  · exact standalone_of_name p.named

theorem standalone_text (p : Pair) : Standalone p.text :=
  standalone_of_key p.standalone_keyText p.scalar.standalone_text

/-- Quotes around a key are taken off. -/
theorem bare_keyText (p : Pair) : trimWhile surroundsKey p.keyText = p.key := by
  have inner {c : CodePoint} (member : c ∈ p.key) : surroundsKey c = false :=
    surroundsKey_of_word (p.words.2 c member)
  have quote : ∀ c ∈ [CodePoint.char '"'], surroundsKey c = true := by decide
  rw [keyText]
  split
  · exact trimWhile_surrounded quote quote (fun c first => inner (List.mem_of_mem_head? first))
      fun c last => inner (List.mem_of_getLast? last)
  · exact trimWhile_of_words p.words.2

theorem looseEntry?_text (p : Pair) : looseEntry? p.text = some (p.key, p.scalar.text) := by
  have whole : p.text = p.keyText ++ .char ':' :: .char ' ' :: p.scalar.text := by
    simp [text, String.toText]
  have noColon : .char ':' ∉ p.keyText := by
    have absent := not_mem_of_words p.words.2 (c := ':') rfl
    rw [keyText]
    split
    · simpa using absent
    · exact absent
  rw [whole]
  exact looseEntry?_of_key p.named noColon p.standalone_keyText.trimmed p.bare_keyText
    p.scalar.standalone_text.trimmed

end Pair

theorem split_flatText (pairs : List Pair) :
    split (objectContent (flatText pairs)) = pairs.map Pair.text := by
  have content : objectContent (flatText pairs) = joinWith ", ".toText (pairs.map Pair.text) :=
    objectContent_braces _
  rw [content]
  refine split_of_standalone fun t member => ?_
  obtain ⟨p, _, rfl⟩ := List.mem_map.mp member
  exact p.standalone_text

theorem readEntries_pairs (now : Time.Moment) (known : Table Value) (pairs : List Pair) :
    readEntries (read now) known (pairs.map Pair.text) =
      .ok (known.putAll (pairs.map Pair.entry)) := by
  induction pairs generalizing known with
  | nil => rfl
  | cons p pairs ih =>
    rw [List.map_cons, readEntries, p.looseEntry?_text]
    dsimp only
    rw [p.scalar.read_text now]
    exact ih _

/-- Entry by entry the object is read as the table of its pairs. -/
theorem readLoosely_flatText (now : Time.Moment) (pairs : List Pair) :
    readLoosely (read now) (flatText pairs) = .ok (dictOf (Table.ofList (pairs.map Pair.entry))) := by
  have entries : readEntries (read now) [] (pairs.map Pair.text) =
      .ok (Table.ofList (pairs.map Pair.entry)) :=
    readEntries_pairs now [] pairs
  rw [readLoosely, split_flatText, entries]

/-! ### As JSON -/

/-- The pair as it is tried as JSON. -/
def Pair.rewritten (p : Pair) : Text :=
  .char '"' :: (p.key ++ .char '"' :: .char ':' :: .char ' ' :: asJson p.scalar.text)

/-- Quotes around a key are kept, and a bare key gets them. -/
theorem Pair.asJson_text (p : Pair) : asJson p.text = p.rewritten := by
  obtain ⟨filled, words⟩ := p.words
  have whole : p.text = p.keyText ++ .char ':' :: .char ' ' :: p.scalar.text := by
    simp [text, String.toText]
  rw [whole, keyText]
  split
  · have colon (u : Text) : asJson (.char ':' :: u) = .char ':' :: asJson u := by
      rw [asJson, quoteBareKeys_other rfl (fun _ => rfl)]
      exact straightQuotes_cons (by decide) _
    have key : asJson p.key = p.key :=
      asJson_of_plain (not_mem_of_words words rfl) (not_mem_of_words words rfl)
    rw [List.cons_append, List.append_assoc, List.singleton_append,
      asJson_cons (by decide) (by decide) (by decide),
      asJson_append (by decide) (by decide) (by decide), key, colon,
      asJson_cons (by decide) (by decide) (by decide), rewritten]
  · rw [asJson_key words filled, asJson_cons (by decide) (by decide) (by decide), rewritten]

theorem asJson_flatText (pairs : List Pair) :
    asJson (flatText pairs) =
      .char '\x7b' :: (joinWith ", ".toText (pairs.map Pair.rewritten) ++ [.char '\x7d']) := by
  have whole : flatText pairs =
      .char '\x7b' :: (joinWith ", ".toText (pairs.map Pair.text) ++ [.char '\x7d']) := rfl
  have each : (pairs.map Pair.text).map asJson = pairs.map Pair.rewritten := by
    rw [List.map_map]
    exact List.map_congr_left fun p _ => p.asJson_text
  rw [whole, asJson_cons (by decide) (by decide) (by decide),
    asJson_append (by decide) (by decide) (by decide), asJson_joinWith_parts, each]
  rfl

/-- One pair that is read is put into the record, and the reading ends or goes on behind it. -/
theorem readMembers_pair {fuel : Nat} {known all : Table Json} {rest : Text} (p : Pair)
    (stops : Stops t) (read : readMembers fuel known (p.rewritten ++ t) = .ok (all, rest)) :
    ∃ fuel', (∀ after, skipSpace t = .char '\x7d' :: after →
        all = Table.put p.key p.scalar.document known) ∧
      ∀ after, skipSpace t = .char ',' :: after →
        readMembers fuel' (Table.put p.key p.scalar.document known) (skipSpace after) =
          .ok (all, rest) := by
  have whole : p.rewritten ++ t = .char '"' :: (p.key ++ .char '"' :: .char ':' ::
      .char ' ' :: (asJson p.scalar.text ++ t)) := by
    simp [Pair.rewritten]
  rw [whole] at read
  refine readMembers_member p.noQuote.1 p.noQuote.2 ?_ read
  -- the space before the scalar is skipped
  exact p.scalar.readsAs_text stops

theorem pairs_begin (p : Pair) (pairs : List Pair) :
    ∃ t, joinWith ", ".toText ((p :: pairs).map Pair.rewritten) ++ [.char '\x7d'] =
      .char '"' :: t := by
  cases pairs with
  | nil => exact ⟨_, rfl⟩
  | cons q pairs => exact ⟨_, rfl⟩

/-- The space behind a comma is skipped, and no more. -/
theorem skipSpace_pairs (p : Pair) (pairs : List Pair) :
    skipSpace (.char ' ' :: (joinWith ", ".toText ((p :: pairs).map Pair.rewritten) ++
        [.char '\x7d'])) =
      joinWith ", ".toText ((p :: pairs).map Pair.rewritten) ++ [.char '\x7d'] := by
  obtain ⟨t, begins⟩ := pairs_begin p pairs
  rw [begins]
  rfl

/-- Pairs that are read are put into the record one after another. -/
theorem readMembers_pairs {fuel : Nat} {known all : Table Json} {rest : Text}
    (read : readMembers fuel known
      (joinWith ", ".toText ((p :: pairs).map Pair.rewritten) ++ [.char '\x7d']) = .ok (all, rest)) :
    all = known.putAll ((p :: pairs).map Pair.member) := by
  induction pairs generalizing p known fuel with
  | nil =>
    have stops : Stops [.char '\x7d'] := rfl
    obtain ⟨_, ends, _⟩ := readMembers_pair p stops read
    exact ends _ rfl
  | cons q pairs ih =>
    have whole : joinWith ", ".toText ((p :: q :: pairs).map Pair.rewritten) ++ [.char '\x7d'] =
        p.rewritten ++ .char ',' :: .char ' ' ::
          (joinWith ", ".toText ((q :: pairs).map Pair.rewritten) ++ [.char '\x7d']) := by
      rw [List.map_cons, List.map_cons, joinWith_cons_cons, List.append_assoc, List.append_assoc]
      rfl
    have stops : Stops (.char ',' :: .char ' ' ::
        (joinWith ", ".toText ((q :: pairs).map Pair.rewritten) ++ [.char '\x7d'])) := rfl
    rw [whole] at read
    obtain ⟨_, _, goesOn⟩ := readMembers_pair p stops read
    have later := goesOn _ rfl
    rw [skipSpace_pairs] at later
    exact ih later

/-- A document that is read of the object is the record of its pairs. -/
theorem record_of_read {j : Json} (read : Json.read (asJson (flatText pairs)) = .ok j) :
    j = .record (Table.ofList (pairs.map Pair.member)) := by
  rw [asJson_flatText] at read
  cases pairs with
  | nil =>
    cases read
    rfl
  | cons p pairs =>
    obtain ⟨t, begins⟩ := pairs_begin p pairs
    rw [begins] at read
    obtain ⟨_, members, _, rfl, all⟩ := readMembers_of_read read
    rw [← begins] at all
    exact congrArg Json.record (readMembers_pairs all)

theorem ofJson_record_eq (table : Table Json) :
    Value.ofJson (.record table) = dictOf (table.mapped Value.ofJson) := by
  have members : Value.ofMembers table =
      (table.mapped Value.ofJson).map fun entry => (.text entry.1, entry.2) := by
    induction table with
    | nil => rfl
    | cons entry table ih =>
      rw [Value.ofMembers, ih]
      rfl
  rw [Value.ofJson, members, dictOf]

/-- The value of a document that is read of the object is the dictionary of its pairs. -/
theorem ofJson_of_read {j : Json} (read : Json.read (asJson (flatText pairs)) = .ok j) :
    Value.ofJson j = dictOf (Table.ofList (pairs.map Pair.entry)) := by
  have entries : (Table.ofList (pairs.map Pair.member)).mapped Value.ofJson =
      Table.ofList (pairs.map Pair.entry) := by
    have mapped := Table.mapped_putAll Value.ofJson [] (pairs.map Pair.member)
    have each : Table.mapped Value.ofJson (pairs.map Pair.member) = pairs.map Pair.entry := by
      rw [Table.mapped, List.map_map]
      rfl
    rw [each] at mapped
    exact mapped
  rw [record_of_read read, ofJson_record_eq, entries]

/-! ### Either way -/

/-- The object is read as the dictionary of its pairs, cleaned, whichever way it is read. -/
theorem read_flatText (now : Time.Moment) (pairs : List Pair) :
    read now (flatText pairs) =
      .ok (dictOf (Table.ofList (pairs.map Pair.entry))).sanitize := by
  have brace : flatText pairs = .char '\x7b' :: (joinWith ", ".toText (pairs.map Pair.text) ++
      [.char '\x7d']) := rfl
  have loosely := readLoosely_flatText now pairs
  rw [brace, read_brace, ← brace, readObject]
  split
  · rename_i members accepted
    rw [ofJson_of_read accepted]
  · rw [loosely]

theorem names_pairs (pairs : List Pair) :
    (Table.ofList (pairs.map Pair.entry)).names = (pairs.map Pair.key).eraseDups := by
  rw [Table.names_ofList, List.map_map]
  rfl

theorem find?_pairs_iff {name : Text} {value : Value} :
    Table.find? name (Table.ofList (pairs.map Pair.entry)) = some value ↔
      ∃ before p after, pairs = before ++ p :: after ∧ p.key = name ∧ p.scalar.value = value ∧
        ∀ q ∈ after, q.key ≠ name := by
  have keys (after : List Pair) :
      name ∉ (after.map Pair.entry).map Prod.fst ↔ ∀ q ∈ after, q.key ≠ name := by
    simp [Pair.entry]
  rw [Table.find?_ofList_iff]
  constructor
  · rintro ⟨_, _, split, absent⟩
    obtain ⟨before, rest, rfl, rfl, behind⟩ := List.map_eq_append_iff.mp split
    obtain ⟨p, after, rfl, ⟨rfl, rfl⟩, rfl⟩ := List.map_eq_cons_iff.mp behind
    exact ⟨before, p, after, rfl, rfl, rfl, (keys after).mp absent⟩
  · rintro ⟨before, p, after, rfl, rfl, rfl, absent⟩
    refine ⟨before.map Pair.entry, after.map Pair.entry, ?_, (keys after).mpr absent⟩
    rw [List.map_append, List.map_cons]
    rfl

/-- A flat object has a table in which each key stands once, where it first came, with the scalar that
came last with it. Entry by entry the object is read as the dictionary of that table, every document
that JSON reads of it has that dictionary as its value, and so it is read as that dictionary, cleaned,
whether JSON reads it or not. -/
theorem flatText_read_as_table (now : Time.Moment) (pairs : List Pair) :
    ∃ table : Table Value,
      table.names = (pairs.map Pair.key).eraseDups ∧
      (∀ name value, table.find? name = some value ↔
        ∃ before p after, pairs = before ++ p :: after ∧ p.key = name ∧ p.scalar.value = value ∧
          ∀ q ∈ after, q.key ≠ name) ∧
      readLoosely (read now) (flatText pairs) = .ok (dictOf table) ∧
      (∀ j, Json.read (asJson (flatText pairs)) = .ok j → Value.ofJson j = dictOf table) ∧
      read now (flatText pairs) = .ok (dictOf table).sanitize :=
  ⟨Table.ofList (pairs.map Pair.entry), names_pairs pairs, fun _ _ => find?_pairs_iff,
    readLoosely_flatText now pairs, fun _ => ofJson_of_read, read_flatText now pairs⟩

-- JSON reads the first of these objects, and not the second, where a word in a text gets quotes.
example :
    Json.read (asJson "\x7ba: 1, \"b\": null, a: 2\x7d".toText) =
        .ok (.record [("a".toText, .int 2), ("b".toText, .null)]) ∧
      Json.read (asJson "\x7ba: \"b: c\"\x7d".toText) = .error .malformed :=
  ⟨by cbv, by cbv⟩

end GuardedConsole.Literal
