import GuardedConsole.Proofs.Literal.Entries

/-!
# Written objects

A written object has distinct ASCII words as keys and texts between double quotes as values. It is
split at its entries whatever the values hold, so that read entry by entry it gives exactly its keys
and values: `readLoosely_objectText`.
-/

namespace GuardedConsole.Literal

open Text Argument

/-- An entry of a written object. The key is an ASCII word that is not dropped, and the value has no
double quote, backslash or angle bracket. -/
structure Field where
  key : Text
  value : Text
  named : Command.isName key = true
  kept : key.isDangerous = false
  plain : ∀ c ∈ value, c ≠ '"' ∧ c ≠ '\\' ∧ c ≠ '<' ∧ c ≠ '>'

namespace Field

def text (f : Field) : Text :=
  f.key ++ ": \"".toText ++ f.value ++ "\"".toText

variable (f : Field)

theorem words : f.key ≠ [] ∧ ∀ c ∈ f.key, isAsciiWord c = true :=
  Command.isName_iff.mp f.named

theorem noQuote : .char '"' ∉ f.value ∧ .char '\\' ∉ f.value :=
  ⟨fun inside => (f.plain _ inside).1 rfl, fun inside => (f.plain _ inside).2.1 rfl⟩

theorem standalone_value : Standalone (inQuotes f.value) :=
  standalone_inQuotes fun last => f.noQuote.2 (List.mem_of_getLast? last)

/-- The entry whose value is the text in quotes. -/
def entry : Entry where
  key := f.key
  text := inQuotes f.value
  named := f.named
  kept := f.kept
  standalone := f.standalone_value

theorem written_entry : f.entry.written = f.text := by
  simp [text, entry, Entry.written, inQuotes, escapeQuotes_eq_self f.noQuote.1, String.toText]

end Field

/-- The text of an object, its entries being written by a function. -/
def objectText (write : Field → Text) (fields : List Field) : Text :=
  "\x7b".toText ++ joinWith ", ".toText (fields.map write) ++ "\x7d".toText

/-- The value that a written object stands for. -/
def objectValue (fields : List Field) : Value :=
  .dict (fields.map fun f => (.text f.key, .text f.value))

variable {f : Field} {fs : List Field}

/-! ### Reading entry by entry -/

/-- Putting an entry under a new key leaves the keys that follow distinct. -/
theorem put_distinct {α : Type} {table : Table α}
    (distinct : (table.names ++ (f :: fs).map Field.key).Nodup) (v : α) :
    table.put f.key v = table ++ [(f.key, v)] ∧
      ((table ++ [(f.key, v)] : Table α).names ++ fs.map Field.key).Nodup := by
  constructor
  · refine Table.put_of_not_mem (fun member => ?_) v
    exact (List.nodup_append.mp distinct).2.2 _ member _ List.mem_cons_self rfl
  · simpa [Table.names] using distinct

/-- The entries of the fields with their values. -/
def entriesOf (fields : List Field) : List (Entry × Value) :=
  fields.map fun f => (f.entry, .text f.value)

theorem objectText_eq (fs : List Field) :
    objectText Field.text fs = literalText ((entriesOf fs).map Prod.fst) := by
  simp [objectText, literalText, entriesOf, Function.comp_def, Field.written_entry]

theorem objectValue_eq (fs : List Field) : objectValue fs = combined (entriesOf fs) := by
  simp [combined, objectValue, entriesOf, Field.entry]

theorem readLoosely_objectText {value : Text → Except Failure Value}
    (texts : ∀ f : Field, value (inQuotes f.value) = .ok (.text f.value))
    (distinct : (fs.map Field.key).Nodup) :
    readLoosely value (objectText Field.text fs) = .ok (objectValue fs) := by
  rw [objectText_eq, objectValue_eq, readLoosely_literalText]
  · intro entry member
    obtain ⟨f, _, rfl⟩ := List.mem_map.mp member
    exact texts f
  · simpa [entriesOf, Function.comp_def, Field.entry] using distinct

/-! ### Values -/

theorem sanitize_objectValue (fs : List Field) : (objectValue fs).sanitize = objectValue fs := by
  have bare : (entriesOf fs).map (fun entry => (entry.1, entry.2.sanitizeItem)) = entriesOf fs := by
    rw [entriesOf, List.map_map]
    refine List.map_congr_left fun f _ => ?_
    have same : f.value.withoutBrackets = f.value := by
      refine List.filter_eq_self.mpr fun c member => ?_
      obtain ⟨_, _, opening, closing⟩ := f.plain c member
      simp [opening, closing]
    rw [Function.comp_apply, Value.sanitizeItem, same]
  rw [objectValue_eq, sanitize_combined, bare]

theorem readNested_inQuotes (now : Time.Moment) (depth : Nat) (f : Field) :
    readNested now (depth + 1) (inQuotes f.value) = .ok (.text f.value) := by
  have apart : ¬[.char '\\', .char '\''] <:+: f.value :=
    fun inside => f.noQuote.2 (inside.subset List.mem_cons_self)
  have noKeyword : keywords.find? (inQuotes f.value) = none := find?_keywords_eq_none rfl rfl
  unfold readNested readWith
  rw [noKeyword, quotedContent?_inQuotes apart]

end GuardedConsole.Literal
