import GuardedConsole.Proofs.Argument.Quoting
import GuardedConsole.Proofs.Command.Grammar
import GuardedConsole.Proofs.Number.Digits

/-!
# Printed commands

`Plain` are the arguments that have a printed form: null, undefined, yes and no, integers that are
not too long, and texts. Each printed form stands alone as an argument and reads as the value, so
that a printed command is read as itself (`parse_printed`).
-/

namespace GuardedConsole

open Text Argument Number

variable {c : CodePoint} {t : Text}

/-- A value with a printed form. A text must not end with a backslash, nor have a backslash directly
before an apostrophe. -/
inductive Plain where
  | null
  | undefined
  | bool (b : Bool)
  | int (i : Int) (short : i.natAbs < 10 ^ maxIntegerDigits)
  | text (t : Text) (ended : t.getLast? ≠ some (.char '\\'))
    (apart : ¬[.char '\\', .char '\''] <:+: t)

namespace Plain

def value : Plain → Value
  | null => .null
  | undefined => .undefined
  | bool b => .bool b
  | int i _ => .int i
  | text t _ _ => .text t

def written : Plain → Text
  | null => "null".toText
  | undefined => "undefined".toText
  | bool b => if b then "true".toText else "false".toText
  | int i _ => intText i
  | text t _ _ => inQuotes t

end Plain

/-! ### Printed forms stand alone -/

theorem standalone_of_calm (calm : ∀ c ∈ t, isCalm c = true)
    (firm : ∀ c ∈ t, isBlank c = false) (nonempty : t ≠ []) : Standalone t where
  closed := (closed_of_calm calm).1
  uncut := uncut_of_calm calm
  nested := (closed_of_calm calm).2
  trimmed := trim_eq_self (fun c first => firm c (List.mem_of_mem_head? first))
    fun c last => firm c (List.mem_of_getLast? last)
  nonempty := nonempty

theorem calm_of_digit (digit : isAsciiDigit c = true) :
    isCalm c = true ∧ isBlank c = false ∧ isAsciiLetter c = false ∧ isQuote c = false := by
  obtain ⟨d, small, rfl⟩ := exists_digitChar digit
  have each : ∀ d < 10, isCalm (digitChar d) = true ∧ isBlank (digitChar d) = false ∧
      isAsciiLetter (digitChar d) = false ∧ isQuote (digitChar d) = false := by decide
  exact each d small

section Numerals

variable {n : Numeral}

theorem numeral_ne_nil (formed : n.WellFormed) : n.text ≠ [] := by
  rw [n.text_eq]
  split
  · exact List.cons_ne_nil _ _
  · exact List.append_ne_nil_of_left_ne_nil formed.whole.filled _

/-- A numeral is written in digits, a point and a minus sign. -/
theorem mem_numeral (formed : n.WellFormed) (member : c ∈ n.text) :
    isAsciiDigit c = true ∨ c = '.' ∨ c = '-' := by
  obtain ⟨negative, whole, fraction⟩ := n
  have digits : ∀ d ∈ whole, isAsciiDigit d = true := formed.whole.all
  have decimals : ∀ d ∈ Numeral.decimals ⟨negative, whole, fraction⟩,
      isAsciiDigit d = true ∨ d = '.' := by
    cases fraction with
    | none => exact List.forall_mem_nil _
    | some places =>
      refine List.forall_mem_cons.mpr ⟨.inr rfl, fun d inPlaces => .inl ?_⟩
      exact (formed.fraction places rfl).all d inPlaces
  have unsigned (inside : c ∈ whole ++ Numeral.decimals ⟨negative, whole, fraction⟩) :
      isAsciiDigit c = true ∨ c = '.' ∨ c = '-' := by
    rcases List.mem_append.mp inside with before | behind
    · exact .inl (digits c before)
    · exact (decimals c behind).imp id .inl
  rw [Numeral.text_eq] at member
  split at member
  · rcases List.mem_cons.mp member with rfl | later
    · exact .inr (.inr rfl)
    · exact unsigned later
  · exact unsigned member

/-- These characters are neither letters, quotes, brackets nor blanks. -/
theorem calm_of_mem_numeral (formed : n.WellFormed) (member : c ∈ n.text) :
    isCalm c = true ∧ isBlank c = false ∧ isAsciiLetter c = false ∧ isQuote c = false := by
  rcases mem_numeral formed member with digit | rfl | rfl
  · exact calm_of_digit digit
  · decide
  · decide

theorem standalone_numeral (formed : n.WellFormed) : Standalone n.text := by
  refine standalone_of_calm ?_ ?_ (numeral_ne_nil formed)
  · intro c member
    obtain ⟨calm, _⟩ := calm_of_mem_numeral formed member
    exact calm
  · intro c member
    obtain ⟨_, firm, _⟩ := calm_of_mem_numeral formed member
    exact firm

end Numerals

theorem standalone_intText (i : Int) : Standalone (intText i) := by
  rw [intText_eq_text]
  exact standalone_numeral (wellFormed_intText i)

theorem Plain.standalone_written (a : Plain) : Standalone a.written := by
  cases a with
  | null => exact standalone_of_calm (by decide) (by decide) (by decide)
  | undefined => exact standalone_of_calm (by decide) (by decide) (by decide)
  | bool b => cases b <;> exact standalone_of_calm (by decide) (by decide) (by decide)
  | int i _ => exact standalone_intText i
  | text t ended _ => exact standalone_inQuotes ended

/-! ### Printed forms are read back -/

namespace Literal

variable {now : Time.Moment}

theorem find?_keywords_eq_none (first : t.head? = some c) (noLetter : isAsciiLetter c = false) :
    keywords.find? t = none := by
  have other : ∀ d ∈ ["null".toText, "undefined".toText, "true".toText, "false".toText], d ≠ t := by
    rintro d listed rfl
    have letters : ∀ d ∈ ["null".toText, "undefined".toText, "true".toText, "false".toText],
        d.head?.all isAsciiLetter = true := by decide
    have letter := letters d listed
    rw [first, Option.all_some, noLetter] at letter
    cases letter
  simp only [List.mem_cons, forall_eq_or_imp, List.not_mem_nil, false_imp_iff, implies_true] at other
  obtain ⟨null, undefined, yes, no, _⟩ := other
  simp only [keywords, Table.find?, if_neg null, if_neg undefined, if_neg yes, if_neg no]

theorem quotedContent?_inQuotes (apart : ¬[.char '\\', .char '\''] <:+: t) :
    quotedContent? (inQuotes t) = some t := by
  have content : Time.Literal.unquote? (inQuotes t) = some (escapeQuotes t) := by
    simp [Time.Literal.unquote?, inQuotes]
  rw [quotedContent?, content, Option.map_some, unescape_escapeQuotes, unescape_of_apart apart]

theorem quotedContent?_eq_none (first : t.head? = some c) (noQuote : isQuote c = false) :
    quotedContent? t = none := by
  cases t with
  | nil => cases first
  | cons c' t =>
    cases first
    have other : ¬((c = .char '\'' ∨ c = .char '"') ∧ t.getLast? = some c) := by
      rintro ⟨rfl | rfl, _⟩ <;> cases noQuote
    rw [quotedContent?, Time.Literal.unquote?, if_neg other, Option.map_none]

theorem read_of_keyword {v : Value} (found : keywords.find? t = some v) : read now t = .ok v := by
  unfold read readNested readWith
  rw [found]

theorem read_of_quoted {content : Text} (noKeyword : keywords.find? t = none)
    (quoted : quotedContent? t = some content) : read now t = .ok (.text content) := by
  unfold read readNested readWith
  rw [noKeyword, quoted]

/-- A numeral is read as the number it writes. -/
theorem read_numeral {n : Numeral} (formed : n.WellFormed) : read now n.text = ofNumeral n := by
  obtain ⟨c, rest, split⟩ := List.exists_cons_of_ne_nil (numeral_ne_nil formed)
  have first : n.text.head? = some c := by
    rw [split]
    rfl
  obtain ⟨_, _, noLetter, noQuote⟩ :=
    calm_of_mem_numeral formed (List.mem_of_mem_head? first)
  have noKeyword := find?_keywords_eq_none first noLetter
  have unquoted := quotedContent?_eq_none first noQuote
  unfold read readNested readWith
  rw [noKeyword, unquoted, Numeral.read?_text formed]

theorem read_inQuotes (apart : ¬[.char '\\', .char '\''] <:+: t) :
    read now (inQuotes t) = .ok (.text t) :=
  read_of_quoted (find?_keywords_eq_none rfl rfl) (quotedContent?_inQuotes apart)

theorem read_intText {i : Int} (short : i.natAbs < 10 ^ maxIntegerDigits) :
    read now (intText i) = .ok (.int i) := by
  rw [intText_eq_text, read_numeral (wellFormed_intText i), ofNumeral, integerOf_natText short]

theorem read_written (a : Plain) : read now a.written = .ok a.value := by
  cases a with
  | null => exact read_of_keyword rfl
  | undefined => exact read_of_keyword rfl
  | bool b => cases b <;> exact read_of_keyword rfl
  | int i short => exact read_intText short
  | text t _ apart => exact read_inQuotes apart

theorem readEach_written (args : List Plain) :
    readEach now (args.map Plain.written) = .ok (args.map Plain.value) := by
  induction args with
  | nil => rfl
  | cons a args ih => rw [List.map_cons, readEach, read_written, ih]; rfl

end Literal

/-! ### Commands -/

namespace Command

def printed (args : List Plain) : Text :=
  joinWith [.char ',', .char ' '] (args.map Plain.written)

theorem standalone_of_mem_written {args : List Plain} {a : Text}
    (member : a ∈ args.map Plain.written) : Standalone a := by
  obtain ⟨b, _, rfl⟩ := List.mem_map.mp member
  exact b.standalone_written

theorem isWellNested_printed (args : List Plain) : isWellNested (printed args) = true :=
  isWellNested_joinWith (fun _ member => (standalone_of_mem_written member).closed)
    fun _ member => (standalone_of_mem_written member).nested

theorem readArguments_printed (now : Time.Moment) (args : List Plain) :
    Literal.readArguments now (printed args) = .ok (args.map Plain.value) := by
  rw [Literal.readArguments, printed, split_of_standalone fun _ => standalone_of_mem_written]
  exact Literal.readEach_written args

/-- A printed call is read as the call, and a printed construction as the construction. -/
theorem parse_printed (now : Time.Moment) (args : List Plain) :
    (∀ path : Path, path.WellNamed →
        parse now (path.text ++ parenthesized (printed args)) =
          .ok (some (.call path (args.map Plain.value)))) ∧
      ∀ name, isName name = true →
        parse now ("new ".toText ++ name ++ parenthesized (printed args)) =
          .ok (some (.construct name (args.map Plain.value))) := by
  have nested := isWellNested_printed args
  have read := readArguments_printed now args
  constructor
  · intro path named
    exact parse_eq_call_iff.mpr ⟨_, ⟨_, .inl rfl, .call named nested⟩, read⟩
  · intro name named
    have space : ∀ c ∈ [CodePoint.char ' '], isAsciiBlank c = true := by decide
    have written := Written.construct (List.cons_ne_nil _ _) space named nested
    exact parse_eq_construct_iff.mpr ⟨_, ⟨_, .inl rfl, written⟩, read⟩

theorem parse_printed_greeting :
    ∃ path : Path, path.WellNamed ∧ ∃ args : List Plain,
      path.text ++ parenthesized (printed args) = "chat.say(null, \"a\\\", [\")".toText ∧
        parse ⟨0, none, by decide⟩ (path.text ++ parenthesized (printed args)) =
          .ok (some (.call path [.null, .text "a\", [".toText])) := by
  have named : Path.WellNamed ⟨"chat".toText, ["say".toText], by decide⟩ := by
    unfold Path.WellNamed
    decide
  refine ⟨_, named, [.null, .text "a\", [".toText (by decide) (by decide)], rfl, ?_⟩
  exact (parse_printed _ _).1 _ named

end Command

end GuardedConsole
