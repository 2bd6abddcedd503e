import Mathlib.Data.List.Basic
import Mathlib.Data.List.TakeWhile
import GuardedConsole.Command.Grammar
import GuardedConsole.Proofs.Text.Joining

/-!
# The grammar of commands

`Written` lists the texts of each shape, and `Reads` admits one newline after them. `shape?_eq_some_iff`
shows that a text is recognized as a shape exactly if it reads so, and `parse_reads_exactly` says
the same of commands with their arguments read.
-/

namespace GuardedConsole

open Text

/-- All names of the path are ASCII words. -/
def Path.WellNamed (p : Path) : Prop :=
  ∀ name ∈ p.segments, Command.isName name = true

namespace Command

variable {t core head blanks name A : Text} {path : Path} {s : Shape} {c : CodePoint}

/-- A text between parentheses. -/
def parenthesized (A : Text) : Text :=
  .char '(' :: (A ++ [.char ')'])

/-- The texts of each shape. -/
inductive Written : Text → Shape → Prop where
  | property {path : Path} : path.WellNamed → Written path.text (.property path)
  | call {path : Path} {A : Text} : path.WellNamed → Argument.isWellNested A = true →
    Written (path.text ++ parenthesized A) (.call path A)
  | construct {blanks name A : Text} : blanks ≠ [] → (∀ c ∈ blanks, isAsciiBlank c = true) →
    isName name = true → Argument.isWellNested A = true →
    Written ("new".toText ++ blanks ++ name ++ parenthesized A) (.construct name A)

/-- The text, or the text without one newline at its end, is one of the shape. -/
def Reads (t : Text) (s : Shape) : Prop :=
  ∃ core, (t = core ∨ t = core ++ [.char '\n']) ∧ Written core s

/-! ### Names and paths -/

theorem isName_iff : isName t = true ↔ t ≠ [] ∧ ∀ c ∈ t, isAsciiWord c = true := by
  simp [isName]

theorem dotted_eq_splitOn (t : Text) : dotted t = t.splitOn (.char '.') := by
  induction t with
  | nil => rfl
  | cons c t ih =>
    rw [dotted, List.splitOn_cons_eq_if_modifyHead, ← ih]
    simp only [beq_iff_eq]
    split
    · rfl
    · cases parts : dotted t with
      | nil => exact (List.splitOn_ne_nil _ t (ih.symm.trans parts)).elim
      | cons part parts => rfl

theorem joinWith_dotted (t : Text) : joinWith [.char '.'] (dotted t) = t := by
  rw [dotted_eq_splitOn, joinWith_eq_intercalate, List.intercalate_splitOn]

theorem point_not_mem_name (named : isName name = true) : CodePoint.char '.' ∉ name := by
  intro member
  exact absurd ((isName_iff.mp named).2 _ member) (by decide)

theorem dotted_path_text (named : path.WellNamed) : dotted path.text = path.segments := by
  rw [dotted_eq_splitOn, Path.text, joinWith_eq_intercalate]
  exact List.splitOn_intercalate _ (fun part listed => point_not_mem_name (named part listed))
    (List.cons_ne_nil _ _)

theorem readPath?_eq_some_iff : readPath? t = some path ↔ t = path.text ∧ path.WellNamed := by
  unfold readPath?
  constructor
  · intro read
    split at read
    · cases read
    · rename_i root members parts
      split at read
      · split at read
        · rename_i named
          cases read
          rw [Bool.and_eq_true, List.all_eq_true] at named
          exact ⟨by rw [Path.text, Path.segments, ← parts, joinWith_dotted],
            List.forall_mem_cons.mpr named⟩
        · cases read
      · cases read
  · rintro ⟨rfl, named⟩
    rw [dotted_path_text named]
    obtain ⟨root, members⟩ := List.forall_mem_cons.mp named
    have valid : (isName path.root && path.members.all isName) = true := by
      rw [root, List.all_eq_true.mpr members]
      rfl
    simp only [Path.segments, dif_pos path.short, if_pos valid]

theorem mem_path_text (named : path.WellNamed) (member : c ∈ path.text) :
    isAsciiWord c = true ∨ c = '.' := by
  rcases mem_joinWith member with point | ⟨part, listed, inPart⟩
  · exact .inr (List.mem_singleton.mp point)
  · exact .inl ((isName_iff.mp (named part listed)).2 c inPart)

theorem readPath?_eq_none (member : c ∈ t) (noWord : isAsciiWord c = false) (noPoint : c ≠ '.') :
    readPath? t = none := by
  cases read : readPath? t with
  | none => rfl
  | some path =>
    obtain ⟨rfl, named⟩ := readPath?_eq_some_iff.mp read
    rcases mem_path_text named member with word | point
    · rw [noWord] at word
      cases word
    · exact (noPoint point).elim

/-! ### Calls and constructions -/

theorem cutCall?_eq_some_iff :
    cutCall? t = some (head, A) ↔ CodePoint.char '(' ∉ head ∧ t = head ++ parenthesized A := by
  unfold cutCall? parenthesized
  constructor
  · intro cut
    split at cut
    · rename_i front rest atFirst
      obtain ⟨absent, rfl⟩ := cutAt_eq_iff.mp atFirst
      split at cut
      · rename_i closed
        cases cut
        exact ⟨absent, by rw [List.dropLast_append_getLast? _ closed]⟩
      · cases cut
    · cases cut
  · rintro ⟨absent, rfl⟩
    simp [cutAt_append absent]

theorem not_isAsciiBlank_of_word (word : isAsciiWord c = true) : isAsciiBlank c = false := by
  by_cases space : c = ' '
  · subst space
    cases word
  by_cases underscore : c = '_'
  · subst underscore
    decide
  simp only [isAsciiWord, isAsciiLetter, isAsciiDigit, Bool.or_eq_true, Bool.and_eq_true,
    decide_eq_true_eq, beq_iff_eq, underscore, or_false] at word
  simp only [isAsciiBlank, Bool.or_eq_false_iff, beq_eq_false_iff_ne, Bool.and_eq_false_iff,
    decide_eq_false_iff_not]
  exact ⟨space, by omega⟩

theorem dropWhile_blanks (blank : ∀ c ∈ blanks, isAsciiBlank c = true)
    (named : isName name = true) : (blanks ++ name).dropWhile isAsciiBlank = name := by
  rw [List.dropWhile_append_of_pos blank]
  cases name with
  | nil => rfl
  | cons c name =>
    have word := (isName_iff.mp named).2 c List.mem_cons_self
    rw [List.dropWhile_cons_of_neg (by rw [not_isAsciiBlank_of_word word]; decide)]

theorem className?_eq_some_iff :
    className? head = some name ↔
      ∃ blanks, blanks ≠ [] ∧ (∀ c ∈ blanks, isAsciiBlank c = true) ∧ isName name = true ∧
        head = "new".toText ++ blanks ++ name := by
  constructor
  · intro read
    unfold className? at read
    split at read
    · rename_i rest
      dsimp only at read
      split at read
      · rename_i valid
        rw [Bool.and_eq_true, decide_eq_true_eq] at valid
        cases read
        have whole := List.takeWhile_append_dropWhile (p := isAsciiBlank) (l := rest)
        refine ⟨rest.takeWhile isAsciiBlank, ?_, fun c member => List.mem_takeWhile_imp member,
          valid.2, ?_⟩
        · intro none
          rw [none, List.nil_append] at whole
          rw [whole] at valid
          exact absurd valid.1 (Nat.lt_irrefl _)
        · rw [List.append_assoc, whole]
          rfl
      · cases read
    · cases read
  · rintro ⟨blanks, nonempty, blank, named, rfl⟩
    have longer : name.length < (blanks ++ name).length := by
      have positive := List.length_pos_iff.mpr nonempty
      rw [List.length_append]
      omega
    have word : "new".toText = [.char 'n', .char 'e', .char 'w'] := rfl
    simp only [className?, word, List.cons_append, List.nil_append, dropWhile_blanks blank named,
      named, decide_eq_true longer, Bool.and_self, if_true]

/-! ### Shapes -/

theorem open_not_mem_path (named : path.WellNamed) : CodePoint.char '(' ∉ path.text := by
  intro member
  rcases mem_path_text named member with word | point
  · exact absurd word (by decide)
  · exact absurd point (by decide)

theorem readPath?_call : readPath? (head ++ parenthesized A) = none :=
  readPath?_eq_none (List.mem_append_right _ List.mem_cons_self) (by decide) (by decide)

theorem open_not_mem_construction (blank : ∀ c ∈ blanks, isAsciiBlank c = true)
    (named : isName name = true) : CodePoint.char '(' ∉ "new".toText ++ blanks ++ name := by
  intro member
  rcases List.mem_append.mp member with before | inName
  · rcases List.mem_append.mp before with inWord | inBlanks
    · exact absurd inWord (by decide)
    · exact absurd (blank _ inBlanks) (by decide)
  · exact absurd ((isName_iff.mp named).2 _ inName) (by decide)

theorem readPath?_construction (nonempty : blanks ≠ [])
    (blank : ∀ c ∈ blanks, isAsciiBlank c = true) :
    readPath? ("new".toText ++ blanks ++ name) = none := by
  -- the first blank is neither a word character nor a point
  obtain ⟨c, rest, rfl⟩ := List.exists_cons_of_ne_nil nonempty
  have first := blank c List.mem_cons_self
  have noWord : isAsciiWord c = false := by
    cases word : isAsciiWord c with
    | false => rfl
    | true =>
      rw [not_isAsciiBlank_of_word word] at first
      cases first
  refine readPath?_eq_none (c := c) (by simp) noWord ?_
  rintro rfl
  exact absurd first (by decide)

/-- The shape of a text that has no newline to lose is the one it is written as. -/
theorem shape?_eq_some_iff_written :
    shape? t = some s ↔ Written (withoutFinalBreak t) s := by
  unfold shape?
  dsimp only
  generalize withoutFinalBreak t = core
  constructor
  · intro shaped
    split at shaped
    · rename_i path read
      obtain ⟨rfl, named⟩ := readPath?_eq_some_iff.mp read
      cases shaped
      exact .property named
    · split at shaped
      · cases shaped
      · rename_i head A cut
        obtain ⟨_, rfl⟩ := cutCall?_eq_some_iff.mp cut
        split at shaped
        · cases shaped
        · rename_i nested
          rw [Bool.not_eq_true, Bool.not_eq_false'] at nested
          split at shaped
          · rename_i path read
            obtain ⟨rfl, named⟩ := readPath?_eq_some_iff.mp read
            cases shaped
            exact .call named nested
          · obtain ⟨name, read, rfl⟩ := Option.map_eq_some_iff.mp shaped
            obtain ⟨blanks, nonempty, blank, named, rfl⟩ := className?_eq_some_iff.mp read
            exact .construct nonempty blank named nested
  · intro written
    cases written with
    | property named => rw [readPath?_eq_some_iff.mpr ⟨rfl, named⟩]
    | call named nested =>
      rw [readPath?_call, cutCall?_eq_some_iff.mpr ⟨open_not_mem_path named, rfl⟩]
      simp only [nested, Bool.not_true, Bool.false_eq_true, if_false,
        readPath?_eq_some_iff.mpr ⟨rfl, named⟩]
    | @construct blanks name A nonempty blank named nested =>
      have read : className? ("new".toText ++ blanks ++ name) = some name :=
        className?_eq_some_iff.mpr ⟨blanks, nonempty, blank, named, rfl⟩
      rw [readPath?_call, cutCall?_eq_some_iff.mpr ⟨open_not_mem_construction blank named, rfl⟩]
      simp only [nested, Bool.not_true, Bool.false_eq_true, if_false,
        readPath?_construction nonempty blank, read, Option.map_some]

/-! ### The newline at the end -/

theorem written_last (written : Written core s) : core.getLast? ≠ some (.char '\n') := by
  have closed : ∀ front A, (front ++ parenthesized A).getLast? ≠ some (.char '\n') := by
    intro front A
    have split : front ++ parenthesized A = (front ++ .char '(' :: A) ++ [.char ')'] := by
      simp [parenthesized]
    rw [split, List.getLast?_concat]
    decide
  cases written with
  | property named =>
    intro last
    rcases mem_path_text named (List.mem_of_getLast? last) with word | point
    · exact absurd word (by decide)
    · exact absurd point (by decide)
  | call _ _ => exact closed _ _
  | construct _ _ _ _ => exact closed _ _

theorem eq_withoutFinalBreak_or (t : Text) :
    t = withoutFinalBreak t ∨ t = withoutFinalBreak t ++ [.char '\n'] := by
  unfold withoutFinalBreak
  split
  · rename_i broken
    exact .inr (List.dropLast_append_getLast? _ broken).symm
  · exact .inl rfl

theorem withoutFinalBreak_eq (last : core.getLast? ≠ some (.char '\n'))
    (split : t = core ∨ t = core ++ [.char '\n']) : withoutFinalBreak t = core := by
  unfold withoutFinalBreak
  rcases split with rfl | rfl
  · rw [if_neg last]
  · rw [if_pos (List.getLast?_concat ..), List.dropLast_concat]

/-- A text is recognized as a shape exactly if it reads as one. -/
theorem shape?_eq_some_iff : shape? t = some s ↔ Reads t s := by
  rw [shape?_eq_some_iff_written]
  constructor
  · intro written
    exact ⟨withoutFinalBreak t, eq_withoutFinalBreak_or t, written⟩
  · rintro ⟨core, split, written⟩
    rw [withoutFinalBreak_eq (written_last written) split]
    exact written

theorem reads_unique {s s' : Shape} (reads : Reads t s) (reads' : Reads t s') : s = s' := by
  rw [← shape?_eq_some_iff] at reads reads'
  exact Option.some.inj (reads.symm.trans reads')

/-! ### Commands -/

variable {now : Time.Moment} {values : List Value} {f : Failure}

theorem parse_of_reads (reads : Reads t s) : parse now t = (ofShape now s).map some := by
  rw [parse, shape?_eq_some_iff.mpr reads]
  dsimp only
  cases ofShape now s <;> rfl

theorem parse_of_not_reads (unread : ∀ s, ¬Reads t s) : parse now t = .ok none := by
  cases shaped : shape? t with
  | none => rw [parse, shaped]
  | some s => exact (unread s (shape?_eq_some_iff.mp shaped)).elim

theorem ofShape_call_eq_ok_iff {c : Command} :
    ofShape now (.call path A) = .ok c ↔
      ∃ values, Literal.readArguments now A = .ok values ∧ c = .call path values := by
  rw [ofShape]
  cases Literal.readArguments now A <;> simp [eq_comm]

theorem ofShape_construct_eq_ok_iff {c : Command} :
    ofShape now (.construct name A) = .ok c ↔
      ∃ values, Literal.readArguments now A = .ok values ∧ c = .construct name values := by
  rw [ofShape]
  cases Literal.readArguments now A <;> simp [eq_comm]

/-- A command that is read from a text comes from its shape. -/
theorem parse_eq_ok_some_iff {c : Command} :
    parse now t = .ok (some c) ↔ ∃ s, Reads t s ∧ ofShape now s = .ok c := by
  constructor
  · intro parsed
    by_cases shaped : ∃ s, Reads t s
    · obtain ⟨s, reads⟩ := shaped
      rw [parse_of_reads reads] at parsed
      cases made : ofShape now s with
      | error f =>
        rw [made] at parsed
        cases parsed
      | ok c' =>
        rw [made] at parsed
        cases parsed
        exact ⟨s, reads, made⟩
    · rw [parse_of_not_reads (not_exists.mp shaped)] at parsed
      cases parsed
  · rintro ⟨s, reads, made⟩
    rw [parse_of_reads reads, made]
    rfl

theorem parse_eq_property_iff :
    parse now t = .ok (some (.property path)) ↔ Reads t (.property path) := by
  rw [parse_eq_ok_some_iff]
  constructor
  · rintro ⟨s, reads, made⟩
    cases s with
    | property path' =>
      cases made
      exact reads
    | call path' A =>
      obtain ⟨_, _, same⟩ := ofShape_call_eq_ok_iff.mp made
      cases same
    | construct name A =>
      obtain ⟨_, _, same⟩ := ofShape_construct_eq_ok_iff.mp made
      cases same
  · intro reads
    exact ⟨_, reads, rfl⟩

theorem parse_eq_call_iff :
    parse now t = .ok (some (.call path values)) ↔
      ∃ A, Reads t (.call path A) ∧ Literal.readArguments now A = .ok values := by
  rw [parse_eq_ok_some_iff]
  constructor
  · rintro ⟨s, reads, made⟩
    cases s with
    | property path' => cases made
    | call path' A =>
      obtain ⟨_, read, same⟩ := ofShape_call_eq_ok_iff.mp made
      cases same
      exact ⟨A, reads, read⟩
    | construct name A =>
      obtain ⟨_, _, same⟩ := ofShape_construct_eq_ok_iff.mp made
      cases same
  · rintro ⟨A, reads, read⟩
    exact ⟨_, reads, ofShape_call_eq_ok_iff.mpr ⟨values, read, rfl⟩⟩

theorem parse_eq_construct_iff :
    parse now t = .ok (some (.construct name values)) ↔
      ∃ A, Reads t (.construct name A) ∧ Literal.readArguments now A = .ok values := by
  rw [parse_eq_ok_some_iff]
  constructor
  · rintro ⟨s, reads, made⟩
    cases s with
    | property path' => cases made
    | call path' A =>
      obtain ⟨_, _, same⟩ := ofShape_call_eq_ok_iff.mp made
      cases same
    | construct name' A =>
      obtain ⟨_, read, same⟩ := ofShape_construct_eq_ok_iff.mp made
      cases same
      exact ⟨A, reads, read⟩
  · rintro ⟨A, reads, read⟩
    exact ⟨_, reads, ofShape_construct_eq_ok_iff.mpr ⟨values, read, rfl⟩⟩

theorem parse_eq_none_iff : parse now t = .ok none ↔ ∀ s, ¬Reads t s := by
  constructor
  · intro parsed s reads
    rw [parse_of_reads reads] at parsed
    cases made : ofShape now s <;> rw [made] at parsed <;> cases parsed
  · exact parse_of_not_reads

theorem ofShape_eq_error_iff :
    ofShape now s = .error f ↔
      ∃ A, ((∃ path, s = .call path A) ∨ ∃ name, s = .construct name A) ∧
        Literal.readArguments now A = .error f := by
  cases s with
  | property path =>
    rw [ofShape]
    simp
  | call path A =>
    rw [ofShape]
    cases read : Literal.readArguments now A <;> simp [read]
  | construct name A =>
    rw [ofShape]
    cases read : Literal.readArguments now A <;> simp [read]

theorem parse_eq_error_iff :
    parse now t = .error f ↔
      ∃ A, ((∃ path, Reads t (.call path A)) ∨ ∃ name, Reads t (.construct name A)) ∧
        Literal.readArguments now A = .error f := by
  constructor
  · intro failed
    by_cases shaped : ∃ s, Reads t s
    · obtain ⟨s, reads⟩ := shaped
      rw [parse_of_reads reads] at failed
      cases made : ofShape now s with
      | ok c =>
        rw [made] at failed
        cases failed
      | error f' =>
        rw [made] at failed
        cases failed
        obtain ⟨A, ⟨path, rfl⟩ | ⟨name, rfl⟩, unread⟩ := ofShape_eq_error_iff.mp made
        · exact ⟨A, .inl ⟨path, reads⟩, unread⟩
        · exact ⟨A, .inr ⟨name, reads⟩, unread⟩
    · rw [parse_of_not_reads (not_exists.mp shaped)] at failed
      cases failed
  · rintro ⟨A, ⟨path, reads⟩ | ⟨name, reads⟩, unread⟩
    · rw [parse_of_reads reads, ofShape_eq_error_iff.mpr ⟨A, .inl ⟨path, rfl⟩, unread⟩]
      rfl
    · rw [parse_of_reads reads, ofShape_eq_error_iff.mpr ⟨A, .inr ⟨name, rfl⟩, unread⟩]
      rfl

/-- A text is read as a command exactly if it reads as the shape of one and the arguments can be
read; a text of no shape is none, and to read one fails only where to read its arguments does. A
text has one shape at most. -/
theorem parse_reads_exactly (now : Time.Moment) (t : Text) :
    (∀ path, parse now t = .ok (some (.property path)) ↔ Reads t (.property path)) ∧
      (∀ path values, parse now t = .ok (some (.call path values)) ↔
        ∃ A, Reads t (.call path A) ∧ Literal.readArguments now A = .ok values) ∧
      (∀ name values, parse now t = .ok (some (.construct name values)) ↔
        ∃ A, Reads t (.construct name A) ∧ Literal.readArguments now A = .ok values) ∧
      (parse now t = .ok none ↔ ∀ s, ¬Reads t s) ∧
      (∀ f, parse now t = .error f ↔
        ∃ A, ((∃ path, Reads t (.call path A)) ∨ ∃ name, Reads t (.construct name A)) ∧
          Literal.readArguments now A = .error f) ∧
      ∀ s s', Reads t s → Reads t s' → s = s' :=
  ⟨fun _ => parse_eq_property_iff, fun _ _ => parse_eq_call_iff, fun _ _ => parse_eq_construct_iff,
    parse_eq_none_iff, fun _ => parse_eq_error_iff, fun _ _ => reads_unique⟩

end Command

end GuardedConsole
