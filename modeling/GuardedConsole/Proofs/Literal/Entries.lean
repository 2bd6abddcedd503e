import GuardedConsole.Proofs.Command.Printing
import GuardedConsole.Proofs.Literal.Depth

/-!
# Entries of an object

A written entry is an ASCII word as key and the text of any value that is one argument wherever it
stands. The text of an object is split at its entries, so that read entry by entry it gives for each
key what the text of its value is read as: `readLoosely_literalText`.
-/

namespace GuardedConsole.Literal

open Text Argument

/-! ### Keys -/

section Keys

variable {key name text : Text}

/-- A bare key stands alone. -/
theorem standalone_of_name (named : Command.isName name = true) : Standalone name := by
  obtain ⟨filled, words⟩ := Command.isName_iff.mp named
  exact standalone_of_calm (fun c member => (calm_of_word (words c member)).1)
    (fun c member => (calm_of_word (words c member)).2) filled

/-- So does a key with the text of a value, if both stand alone. -/
theorem standalone_of_key (standalone : Standalone key) (value : Standalone text) :
    Standalone (key ++ ": ".toText ++ text) := by
  have behind : Standalone (": ".toText ++ text) := by
    refine value.prepend (by decide) ?_ ?_
    · rintro c ⟨rfl⟩
      rfl
    · intro c last
      rw [List.getLast?_append_of_ne_nil _ value.nonempty, ← value.trimmed] at last
      exact not_blank_of_trim last
  rw [List.append_assoc]
  exact standalone.append behind

theorem surroundsKey_of_word {c : CodePoint} (word : isAsciiWord c = true) :
    surroundsKey c = false := by
  rw [surroundsKey, Bool.or_eq_false_iff, beq_eq_false_iff_ne, beq_eq_false_iff_ne]
  constructor
  · rintro rfl
    cases word
  · rintro rfl
    cases word

theorem trimWhile_of_words (words : ∀ c ∈ name, isAsciiWord c = true) :
    trimWhile surroundsKey name = name :=
  trimWhile_eq_self (fun c first => surroundsKey_of_word (words c (List.mem_of_mem_head? first)))
    fun c last => surroundsKey_of_word (words c (List.mem_of_getLast? last))

/-- An entry is a key, a colon and the text of a value. The key may be in quotes. -/
theorem looseEntry?_of_key (named : Command.isName name = true) (noColon : .char ':' ∉ key)
    (firm : key.trim = key) (bare : trimWhile surroundsKey key = name) (trimmed : text.trim = text) :
    looseEntry? (key ++ .char ':' :: .char ' ' :: text) = some (name, text) := by
  obtain ⟨filled, words⟩ := Command.isName_iff.mp named
  have value : trim (.char ' ' :: text) = text := (trim_cons_of_blank rfl).trans trimmed
  unfold looseEntry?
  rw [cutAt_append noColon]
  dsimp only
  rw [firm, bare, value, if_pos (by simpa [filled] using words)]

end Keys

/-! ### Written entries -/

/-- An entry of a written object. Its key is not dropped. -/
structure Entry where
  key : Text
  text : Text
  named : Command.isName key = true
  kept : key.isDangerous = false
  standalone : Standalone text

namespace Entry

def written (e : Entry) : Text :=
  e.key ++ ": ".toText ++ e.text

variable (e : Entry)

theorem words : e.key ≠ [] ∧ ∀ c ∈ e.key, isAsciiWord c = true :=
  Command.isName_iff.mp e.named

theorem calm_key : ∀ c ∈ e.key ++ ": ".toText, isCalm c = true := by
  obtain ⟨_, words⟩ := e.words
  have marks : ∀ c ∈ ": ".toText, isCalm c = true := by decide
  exact List.forall_mem_append.mpr ⟨fun c inKey => (calm_of_word (words c inKey)).1, marks⟩

theorem standalone_written : Standalone e.written :=
  standalone_of_key (standalone_of_name e.named) e.standalone

theorem looseEntry?_written : looseEntry? e.written = some (e.key, e.text) := by
  obtain ⟨_, words⟩ := e.words
  have whole : e.written = e.key ++ .char ':' :: .char ' ' :: e.text := by
    simp [written, String.toText]
  have noColon : .char ':' ∉ e.key := fun member => absurd (words _ member) (by decide)
  rw [whole]
  exact looseEntry?_of_key e.named noColon (standalone_of_name e.named).trimmed
    (trimWhile_of_words words) e.standalone.trimmed

end Entry

/-- The text of an object with these entries. -/
def literalText (entries : List Entry) : Text :=
  "\x7b".toText ++ joinWith ", ".toText (entries.map Entry.written) ++ "\x7d".toText

/-- The dictionary that has a value under the key of each entry. -/
def combined (entries : List (Entry × Value)) : Value :=
  .dict (entries.map fun entry => (.text entry.1.key, entry.2))

variable {e : Entry} {es : List Entry} {entries : List (Entry × Value)} {t : Text}
  {value : Text → Except Failure Value} {now : Time.Moment}

/-! ### Reading entry by entry -/

theorem objectContent_braces (t : Text) :
    objectContent (.char '\x7b' :: (t ++ [.char '\x7d'])) = t := by
  rw [objectContent, ← List.cons_append, List.getLast?_concat, if_pos rfl]
  simp

theorem split_literalText (es : List Entry) :
    split (objectContent (literalText es)) = es.map Entry.written := by
  have content : objectContent (literalText es) = joinWith ", ".toText (es.map Entry.written) :=
    objectContent_braces _
  rw [content]
  refine split_of_standalone fun t member => ?_
  obtain ⟨e, _, rfl⟩ := List.mem_map.mp member
  exact e.standalone_written

theorem readEntries_written {known : Table Value}
    (texts : ∀ entry ∈ entries, value entry.1.text = .ok entry.2)
    (distinct : (known.names ++ entries.map fun entry => entry.1.key).Nodup) :
    readEntries value known (entries.map fun entry => entry.1.written) =
      .ok (known ++ entries.map fun entry => (entry.1.key, entry.2)) := by
  induction entries generalizing known with
  | nil => rw [List.map_nil, readEntries, List.map_nil, List.append_nil]
  | cons entry entries ih =>
    obtain ⟨first, others⟩ := List.forall_mem_cons.mp texts
    have new : entry.1.key ∉ known.names := fun member =>
      (List.nodup_append.mp distinct).2.2 _ member _ List.mem_cons_self rfl
    rw [List.map_cons, readEntries, Entry.looseEntry?_written]
    dsimp only
    rw [first]
    dsimp only
    rw [Table.put_of_not_mem new, ih others (by simpa [Table.names] using distinct)]
    simp

theorem readLoosely_literalText (texts : ∀ entry ∈ entries, value entry.1.text = .ok entry.2)
    (distinct : (entries.map fun entry => entry.1.key).Nodup) :
    readLoosely value (literalText (entries.map Prod.fst)) = .ok (combined entries) := by
  have start : (Table.names ([] : Table Value) ++ entries.map fun entry => entry.1.key).Nodup :=
    distinct
  have read := readEntries_written texts start
  rw [readLoosely, split_literalText, List.map_map]
  rw [Function.comp_def, read]
  simp [dictOf, combined]

/-- A value that is not read stops the reading of the object. -/
theorem texts_of_readEntries {known all : Table Value}
    (read : readEntries value known (es.map Entry.written) = .ok all) :
    ∀ e ∈ es, ∃ v, value e.text = .ok v := by
  induction es generalizing known with
  | nil => exact List.forall_mem_nil _
  | cons e es ih =>
    rw [List.map_cons, readEntries, e.looseEntry?_written] at read
    dsimp only at read
    split at read
    · cases read
    · rename_i found
      exact List.forall_mem_cons.mpr ⟨⟨_, found⟩, ih read⟩

theorem texts_of_readLoosely {v : Value} (read : readLoosely value (literalText es) = .ok v) :
    ∀ e ∈ es, ∃ v, value e.text = .ok v := by
  rw [readLoosely, split_literalText] at read
  split at read
  · rename_i all
    exact texts_of_readEntries all
  · cases read

/-- Cleaning keeps the keys and cleans the values. -/
theorem sanitize_combined (entries : List (Entry × Value)) :
    (combined entries).sanitize =
      combined (entries.map fun entry => (entry.1, entry.2.sanitizeItem)) := by
  have cleaned : Value.sanitizeEntries (entries.map fun entry => (.text entry.1.key, entry.2)) =
      entries.map fun entry => (.text entry.1.key, entry.2.sanitizeItem) := by
    induction entries with
    | nil => rfl
    | cons entry entries ih =>
      have kept : Value.isDangerousKey (.text entry.1.key) = false := entry.1.kept
      rw [List.map_cons, Value.sanitizeEntries, kept, if_neg (by decide), ih, List.map_cons]
  rw [combined, Value.sanitize, cleaned, combined, List.map_map]
  rfl

end GuardedConsole.Literal
