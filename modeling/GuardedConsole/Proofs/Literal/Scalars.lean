import GuardedConsole.Proofs.Json.Grammar
import GuardedConsole.Proofs.Json.Members
import GuardedConsole.Proofs.Json.Numerals
import GuardedConsole.Proofs.Literal.BareKeys
import GuardedConsole.Proofs.Literal.Entries

/-!
# Scalars

A scalar is one of null, yes and no, a numeral, or a text in double quotes that has no quotes and no
backslashes. As a literal it is always read as its value (`Scalar.read_text`). As JSON it is rewritten
and may be refused, but where reading goes on behind it, it was read as its document
(`Scalar.readsAs_text`): a key that is quoted inside a string ends the string before a word.
-/

namespace GuardedConsole.Literal

open Text Argument Json Number

inductive Scalar where
  | null
  | bool (b : Bool)
  | number (n : Numeral) (formed : n.WellFormed) (short : IsShort n)
  | string (content : Text) (plain : ∀ c ∈ content, c ≠ '"' ∧ c ≠ '\'' ∧ c ≠ '\\')

namespace Scalar

def text : Scalar → Text
  | null => "null".toText
  | bool b => if b then "true".toText else "false".toText
  | number n _ _ => n.text
  | string content _ => .char '"' :: (content ++ [.char '"'])

def document : Scalar → Json
  | null => .null
  | bool b => .bool b
  | number n _ _ => Json.ofNumeral n
  | string content _ => .text content

def value (s : Scalar) : Value :=
  Value.ofJson s.document

variable {c : CodePoint} {t rest content : Text} {now : Time.Moment}

/-! ### As literals -/

theorem inQuotes_eq (noQuote : .char '"' ∉ content) :
    inQuotes content = .char '"' :: (content ++ [.char '"']) := by
  rw [inQuotes, escapeQuotes_eq_self noQuote]

theorem not_mem_of_plain (plain : ∀ c ∈ content, c ≠ '"' ∧ c ≠ '\'' ∧ c ≠ '\\') :
    .char '"' ∉ content ∧ .char '\'' ∉ content ∧ .char '\\' ∉ content :=
  ⟨fun inside => (plain _ inside).1 rfl, fun inside => (plain _ inside).2.1 rfl,
    fun inside => (plain _ inside).2.2 rfl⟩

theorem standalone_text (s : Scalar) : Standalone s.text := by
  cases s with
  | null => exact standalone_of_calm (by decide) (by decide) (by decide)
  | bool b => cases b <;> exact standalone_of_calm (by decide) (by decide) (by decide)
  | number n formed _ => exact standalone_numeral formed
  | string content plain =>
    obtain ⟨noQuote, _, noBackslash⟩ := not_mem_of_plain plain
    have standalone : Standalone (inQuotes content) :=
      standalone_inQuotes fun last => noBackslash (List.mem_of_getLast? last)
    rw [inQuotes_eq noQuote] at standalone
    exact standalone

theorem ofNumeral_of_short {n : Numeral} (short : IsShort n) :
    Literal.ofNumeral n = .ok (Value.ofJson (Json.ofNumeral n)) := by
  obtain ⟨negative, whole, fraction⟩ := n
  cases fraction with
  | none => rw [Literal.ofNumeral, integerOf_of_short (short rfl), Json.ofNumeral, Value.ofJson]
  | some digits => rfl

theorem read_text (now : Time.Moment) (s : Scalar) : Literal.read now s.text = .ok s.value := by
  cases s with
  | null => exact read_of_keyword rfl
  | bool b => cases b <;> exact read_of_keyword rfl
  | number n formed short => exact (read_numeral formed).trans (ofNumeral_of_short short)
  | string content plain =>
    obtain ⟨noQuote, _, noBackslash⟩ := not_mem_of_plain plain
    have apart : ¬[.char '\\', .char '\''] <:+: content :=
      fun inside => noBackslash (inside.subset List.mem_cons_self)
    have read : Literal.read now (inQuotes content) = .ok (.text content) := read_inQuotes apart
    rw [inQuotes_eq noQuote] at read
    exact read

/-! ### As JSON -/

theorem isSpace_of_word (word : isAsciiWord c = true) : isSpace c = false := by
  cases space : isSpace c with
  | false => rfl
  | true =>
    simp only [isSpace, Bool.or_eq_true, beq_iff_eq] at space
    rcases space with ((rfl | rfl) | rfl) | rfl <;> cases word

/-- No record goes on with a word. -/
theorem not_goesOn_of_word (word : isAsciiWord c = true) : ¬GoesOn (c :: t) := by
  have first : skipSpace (c :: t) = c :: t := by
    rw [skipSpace, List.dropWhile_cons_of_neg (by simp [isSpace_of_word word])]
  rintro ⟨after, ended | next⟩
  · rw [first] at ended
    cases ended
    cases word
  · rw [first] at next
    cases next
    cases word

theorem readsAs_string (plain : ∀ c ∈ content, c ≠ '"' ∧ c ≠ '\'' ∧ c ≠ '\\') :
    ReadsAs (.char '"' :: (asJson content ++ .char '"' :: rest)) (.text content) rest := by
  obtain ⟨noQuote, noApostrophe, noBackslash⟩ := not_mem_of_plain plain
  intro fuel j after read goesOn
  have first (u : Text) : skipSpace (.char '"' :: u) = .char '"' :: u := rfl
  rw [first] at read
  rcases asJson_cases noQuote noApostrophe with same | ⟨before, d, tail, quoted, noQuote', word⟩
  · rw [same] at read
    exact readValue_quoted noQuote noBackslash read
  · -- the string ends where the word is put in quotes, and the word is left over
    have noBackslash' : .char '\\' ∉ before := by
      intro inside
      have member : .char '\\' ∈ asJson content := by
        rw [quoted]
        exact List.mem_append_left _ inside
      rcases mem_asJson member with quote | inContent
      · exact absurd quote (by decide)
      · exact noBackslash inContent
    rw [quoted, List.append_assoc] at read
    obtain ⟨_, rfl⟩ := readValue_quoted noQuote' noBackslash' read
    exact (not_goesOn_of_word word goesOn).elim

/-- Numbers and words begin with a character that is theirs alone, and no such text is rewritten. -/
theorem readsAs_atom (filled : t ≠ []) (atomic : ∀ c ∈ t, isAtomic c = true) {j : Json}
    (reads : ∀ j' after, readAtom (t ++ rest) = .ok (j', after) → GoesOn after →
      j' = j ∧ after = rest) : ReadsAs (asJson t ++ rest) j rest := by
  have noColon : .char ':' ∉ t := fun inside => absurd (atomic _ inside) (by decide)
  have noApostrophe : .char '\'' ∉ t := fun inside => absurd (atomic _ inside) (by decide)
  obtain ⟨c, u, rfl⟩ := List.exists_cons_of_ne_nil filled
  have first := atomic c List.mem_cons_self
  have space : skipSpace (c :: (u ++ rest)) = c :: (u ++ rest) := by
    rw [skipSpace, List.dropWhile_cons_of_neg (by simp [isSpace_of_atomic first])]
  intro fuel j' after read goesOn
  rw [asJson_of_plain noColon noApostrophe, List.cons_append, space] at read
  cases fuel with
  | zero => cases read
  | succ fuel =>
    rw [readValue_atom first] at read
    exact reads j' after read goesOn

theorem readsAs_word {j : Json} (filled : t ≠ []) (atomic : ∀ c ∈ t, isAtomic c = true)
    (word : readAtom (t ++ rest) = .ok (j, rest)) : ReadsAs (asJson t ++ rest) j rest := by
  refine readsAs_atom filled atomic fun j' after read _ => ?_
  rw [word] at read
  cases read
  exact ⟨rfl, rfl⟩

theorem not_goesOn_of_digit (digit : t.head?.any isAsciiDigit = true) : ¬GoesOn t := by
  cases t with
  | nil => cases digit
  | cons c t =>
    have word : isAsciiWord c = true := by
      have isDigit : isAsciiDigit c = true := digit
      simp [isAsciiWord, isDigit]
    exact not_goesOn_of_word word

theorem readsAs_number {n : Numeral} (formed : n.WellFormed) (short : IsShort n)
    (stops : Stops rest) : ReadsAs (asJson n.text ++ rest) (Json.ofNumeral n) rest := by
  refine readsAs_atom (numeral_ne_nil formed) ?_ ?_
  · intro c member
    rcases mem_numeral formed member with digit | rfl | rfl
    · exact isAtomic_of_digit digit
    · rfl
    · rfl
  · intro j after read goesOn
    rcases readAtom_numeral formed short stops read with document | digit
    · exact document
    · exact (not_goesOn_of_digit digit goesOn).elim

/-- Where reading goes on behind the rewritten scalar, it was read as its document. -/
theorem readsAs_text (s : Scalar) (stops : Stops rest) :
    ReadsAs (asJson s.text ++ rest) s.document rest := by
  cases s with
  | null => exact readsAs_word (by decide) (by decide) rfl
  | bool b => cases b <;> exact readsAs_word (by decide) (by decide) rfl
  | number n formed short => exact readsAs_number formed short stops
  | string content plain =>
    have rewritten : asJson (text (string content plain)) =
        .char '"' :: (asJson content ++ [.char '"']) := by
      rw [text, asJson_cons (by decide) (by decide) (by decide),
        asJson_append (by decide) (by decide) (by decide)]
      rfl
    rw [rewritten, List.cons_append, List.append_assoc]
    exact readsAs_string plain

end Scalar

end GuardedConsole.Literal
