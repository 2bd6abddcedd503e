import GuardedConsole.Proofs.Command.Grammar
import GuardedConsole.Proofs.Literal.Screened

/-!
# Screening carries over to arguments

An argument is cut out of the command, and a literal that denotes a text either is that text or has it
between quotes (`text_of_read`). Dropping backslashes before quotes brings nothing together that a
denied pattern matches, since none matches across a quote. So a command that is clean passes no text
that is not: `plain_arguments_stay_clean`.
-/

namespace GuardedConsole

open Text Screening

/-! ### Literals that denote texts -/

namespace Literal

variable {value : Text → Except Failure Value} {now : Time.Moment} {t s : Text} {v : Value}
  {texts : List Text} {values : List Value}

theorem readObject_ne_text : readObject value t ≠ .ok (.text s) := by
  intro read
  unfold readObject at read
  split at read
  · rw [Value.ofJson, Value.sanitize] at read
    cases read
  · split at read
    · rename_i loose
      unfold readLoosely at loose
      split at loose
      · cases loose
        rw [dictOf, Value.sanitize] at read
        cases read
      · cases loose
    · cases read

theorem readArray_ne_text : readArray t ≠ .text s := by
  unfold readArray
  split <;> simp

theorem ofNumeral_ne_text {n : Number.Numeral} : ofNumeral n ≠ .ok (.text s) := by
  unfold ofNumeral
  split
  · simp
  · split <;> simp

theorem keyword_ne_text : keywords.find? t ≠ some (.text s) := by
  intro found
  have listed := Table.mem_of_find? found
  simp [keywords] at listed

/-- A literal that denotes a text has it between quotes or is the text itself. -/
theorem text_of_read (read : Literal.read now t = .ok (.text s)) :
    quotedContent? t = some s ∨ s = t := by
  unfold Literal.read readNested readWith at read
  split at read
  · rename_i keyword
    cases read
    exact (keyword_ne_text keyword).elim
  split at read
  · rename_i quoted
    cases read
    exact .inl quoted
  split at read
  · exact (ofNumeral_ne_text read).elim
  split at read
  · split at read <;> cases read
  split at read
  · exact (readObject_ne_text read).elim
  · exact (readArray_ne_text (Except.ok.inj read)).elim
  · cases read
    exact .inr rfl

theorem clean_of_read (clean : findViolation t = none) (read : Literal.read now t = .ok (.text s)) :
    findViolation s = none := by
  rcases text_of_read read with quoted | rfl
  · exact clean_of_traced clean (traced_of_quotedContent? quoted)
  · exact clean

theorem clean_of_mem_split (clean : findViolation t = none) :
    ∀ part ∈ Argument.split t, findViolation part = none := by
  intro part listed
  exact clean_of_part clean (infix_of_mem_split listed)

/-- Every value that is read comes from one of the texts. -/
theorem exists_of_mem_readEach (read : readEach now texts = .ok values) (listed : v ∈ values) :
    ∃ t ∈ texts, Literal.read now t = .ok v := by
  have each := readEach_eq_ok_iff.mp read
  clear read
  induction each with
  | nil => cases listed
  | @cons t first texts others here _ ih =>
    rcases List.mem_cons.mp listed with rfl | inOthers
    · exact ⟨t, List.mem_cons_self, here⟩
    · obtain ⟨u, member, found⟩ := ih inOthers
      exact ⟨u, List.mem_cons_of_mem t member, found⟩

theorem clean_of_readArguments (clean : findViolation t = none)
    (read : readArguments now t = .ok values) (listed : .text s ∈ values) :
    findViolation s = none := by
  obtain ⟨part, member, found⟩ := exists_of_mem_readEach read listed
  exact clean_of_read (clean_of_mem_split clean part member) found

end Literal

/-! ### Commands -/

namespace Command

variable {t A name : Text} {path : Path} {shape : Shape}

/-- The text is what a command of this shape has between its parentheses. -/
def Shape.HasArguments (shape : Shape) (A : Text) : Prop :=
  (∃ path, shape = .call path A) ∨ ∃ name, shape = .construct name A

theorem infix_parenthesized (A : Text) : A <:+: parenthesized A :=
  ⟨[.char '('], [.char ')'], rfl⟩

theorem infix_of_reads (reads : Reads t shape) (has : shape.HasArguments A) : A <:+: t := by
  obtain ⟨core, ended, written⟩ := reads
  have inside : A <:+: core := by
    rcases has with ⟨path, rfl⟩ | ⟨name, rfl⟩
    · cases written
      exact (infix_parenthesized A).trans (List.suffix_append _ _).isInfix
    · cases written
      exact (infix_parenthesized A).trans (List.suffix_append _ _).isInfix
  rcases ended with rfl | rfl
  · exact inside
  · exact inside.trans (List.prefix_append _ _).isInfix

/-- If no denied pattern matches a literal that denotes a text, none matches that text. If none matches
a command, none matches the arguments that are cut out of any part of it, such as what stands between
its parentheses, nor any text that it passes. -/
theorem plain_arguments_stay_clean (now : Time.Moment) :
    (∀ raw s, findViolation raw = none → Literal.read now raw = .ok (.text s) →
      findViolation s = none) ∧
    (∀ command A, findViolation command = none → A <:+: command →
      ∀ part ∈ Argument.split A, findViolation part = none) ∧
    ∀ command shape A values, findViolation command = none → Reads command shape →
      shape.HasArguments A → A <:+: command ∧
        (Literal.readArguments now A = .ok values →
          ∀ s, .text s ∈ values → findViolation s = none) := by
  refine ⟨fun raw s clean read => Literal.clean_of_read clean read, ?_, ?_⟩
  · intro command A clean part
    exact Literal.clean_of_mem_split (clean_of_part clean part)
  · intro command shape A values clean reads has
    have part := infix_of_reads reads has
    refine ⟨part, fun read s listed => ?_⟩
    exact Literal.clean_of_readArguments (clean_of_part clean part) read listed

/-- A literal with both kinds of quotes, and a command that passes it. -/
def quotedRemark : Text :=
  "\"it\\'s \\\"eval\\\" (\"".toText

def remark : Text :=
  "chat.say(".toText ++ quotedRemark ++ ")".toText

theorem remark_stays_clean :
    findViolation remark = none ∧ quotedRemark <:+: remark ∧
      Argument.split quotedRemark = [quotedRemark] ∧
      (∀ part ∈ Argument.split quotedRemark, findViolation part = none) ∧
      findViolation quotedRemark = none ∧
      Literal.read ⟨0, none, Nat.zero_lt_succ _⟩ quotedRemark = .ok (.text "it's \"eval\" (".toText) ∧
      findViolation "it's \"eval\" (".toText = none := by
  obtain ⟨literals, arguments, _⟩ := plain_arguments_stay_clean ⟨0, none, Nat.zero_lt_succ _⟩
  have clean : findViolation remark = none := by cbv
  have part : quotedRemark <:+: remark := ⟨"chat.say(".toText, ")".toText, rfl⟩
  have clean' : findViolation quotedRemark = none := clean_of_part clean part
  have read : Literal.read ⟨0, none, Nat.zero_lt_succ _⟩ quotedRemark =
      .ok (.text "it's \"eval\" (".toText) :=
    Literal.read_of_quoted (Literal.find?_keywords_eq_none rfl rfl) (by decide)
  have split : Argument.split quotedRemark = [quotedRemark] := by decide
  exact ⟨clean, part, split, arguments _ _ clean part, clean', read, literals _ _ clean' read⟩

end Command

end GuardedConsole
