import GuardedConsole.Proofs.Argument.Scanning

/-!
# Quoting a text

`inQuotes` writes a text between double quotes, a backslash before each of its own. Scanning stays
inside the quotes up to the last one (`standalone_inQuotes`), and dropping the backslashes gives the
text back (`unescape_escapeQuotes`).
-/

namespace GuardedConsole.Argument

open Text

variable {t : Text} {c quote : CodePoint}

/-- The text with a backslash before every quote. -/
def escapeQuotes : Text → Text
  | [] => []
  | c :: t => if c = '"' then .char '\\' :: c :: escapeQuotes t else c :: escapeQuotes t

/-- The text between double quotes, its own quotes escaped. -/
def inQuotes (t : Text) : Text :=
  .char '"' :: (escapeQuotes t ++ [.char '"'])

/-! ### Escaped quotes -/

theorem escapeQuotes_head (t : Text) : (escapeQuotes t).head? ≠ some (.char '"') := by
  cases t with
  | nil => simp [escapeQuotes]
  | cons c t =>
    rw [escapeQuotes]
    split
    · simp
    · rename_i other
      simpa using other

theorem escapeQuotes_eq_self (absent : .char '"' ∉ t) : escapeQuotes t = t := by
  induction t with
  | nil => rfl
  | cons c t ih =>
    rw [escapeQuotes, if_neg (Ne.symm (List.ne_of_not_mem_cons absent)),
      ih (List.not_mem_of_not_mem_cons absent)]

theorem unescape_cons (apart : c ≠ '\\' ∨ t.head? ≠ some quote) :
    unescape quote (c :: t) = c :: unescape quote t := by
  cases t with
  | nil => rfl
  | cons d t =>
    rw [unescape, if_neg]
    rintro ⟨rfl, rfl⟩
    rcases apart with other | other
    · exact other rfl
    · exact other rfl

theorem unescape_escapeQuotes (t : Text) : unescape (.char '"') (escapeQuotes t) = t := by
  induction t with
  | nil => rfl
  | cons c t ih =>
    rw [escapeQuotes]
    split
    · rename_i quoted
      rw [unescape, if_pos ⟨rfl, quoted⟩, ih, quoted]
    · rw [unescape_cons (.inr (escapeQuotes_head t)), ih]

theorem unescape_of_apart (apart : ¬[.char '\\', quote] <:+: t) : unescape quote t = t := by
  induction t with
  | nil => rfl
  | cons c t ih =>
    have later : ¬[.char '\\', quote] <:+: t := fun inside =>
      apart (inside.trans (List.suffix_cons c t).isInfix)
    rw [unescape_cons, ih later]
    by_cases backslash : c = '\\'
    · subst backslash
      refine .inr fun head => apart ?_
      cases t with
      | nil => cases head
      | cons d t =>
        cases head
        exact ⟨[], t, rfl⟩
    · exact .inl backslash

/-! ### Scanning a printed text -/

/-- A scan inside double quotes that no bracket surrounds. -/
def Scan.quoted (e : Bool) : Scan :=
  ⟨some (.char '"'), 0, e⟩

theorem step_quoted (e : Bool) (other : c ≠ '"') :
    (Scan.quoted e).step c = Scan.quoted (c == '\\') := by
  simp [Scan.quoted, Scan.step, other]

theorem step_backslash (e : Bool) : (Scan.quoted e).step (.char '\\') = Scan.quoted true :=
  step_quoted e (by decide)

theorem step_escaped : (Scan.quoted true).step (.char '"') = Scan.quoted false := rfl

/-- Escaped quotes do not end a quoted text, so that scanning stays inside. -/
theorem run_prefix_escapeQuotes {before after : Text} (e : Bool)
    (split : escapeQuotes t = before ++ after) :
    ∃ e', (Scan.quoted e).run before = Scan.quoted e' := by
  induction t generalizing before e with
  | nil =>
    obtain ⟨rfl, _⟩ := List.append_eq_nil_iff.mp split.symm
    exact ⟨e, rfl⟩
  | cons c t ih =>
    rw [escapeQuotes] at split
    split at split
    · rename_i quoted
      rcases before with _ | ⟨b, _ | ⟨b', before⟩⟩
      · exact ⟨e, rfl⟩
      · obtain ⟨rfl, _⟩ := List.cons.inj split
        exact ⟨true, step_backslash e⟩
      · obtain ⟨rfl, later⟩ := List.cons.inj split
        obtain ⟨rfl, rest⟩ := List.cons.inj later
        rw [Scan.run_cons, step_backslash, Scan.run_cons, quoted, step_escaped]
        exact ih false rest
    · rename_i other
      cases before with
      | nil => exact ⟨e, rfl⟩
      | cons b before =>
        obtain ⟨rfl, later⟩ := List.cons.inj split
        rw [Scan.run_cons, step_quoted e other]
        exact ih _ later

/-- Only a backslash at the end of the text itself could hide the quote after it. -/
theorem run_escapeQuotes (e : Bool) (t : Text) :
    (Scan.quoted e).run (escapeQuotes t) =
      Scan.quoted ((t.getLast?.map (· == .char '\\')).getD e) := by
  induction t generalizing e with
  | nil => rfl
  | cons c t ih =>
    have last : ((c :: t).getLast?.map (· == CodePoint.char '\\')).getD e =
        (t.getLast?.map (· == CodePoint.char '\\')).getD (c == '\\') := by
      rw [List.getLast?_cons]
      cases t.getLast? <;> rfl
    rw [last, escapeQuotes]
    split
    · rename_i quoted
      rw [Scan.run_cons, step_backslash, Scan.run_cons, quoted, step_escaped, ih]
      rfl
    · rename_i other
      rw [Scan.run_cons, step_quoted e other, ih]

theorem run_escapeQuotes_of_ended (ended : t.getLast? ≠ some (.char '\\')) :
    (Scan.quoted false).run (escapeQuotes t) = Scan.quoted false := by
  rw [run_escapeQuotes]
  cases last : t.getLast? with
  | none => rfl
  | some c =>
    have other : c ≠ .char '\\' := by
      rintro rfl
      exact ended last
    simp only [Option.map_some, Option.getD_some, beq_false_of_ne other]

theorem standalone_inQuotes (ended : t.getLast? ≠ some (.char '\\')) :
    Standalone (inQuotes t) := by
  have opened : Scan.step {} (.char '"') = Scan.quoted false := rfl
  have inside := run_escapeQuotes_of_ended ended
  constructor
  case closed =>
    rw [Closed, inQuotes, Scan.run_cons, opened, Scan.run_append, inside]
    exact ⟨rfl, rfl⟩
  case uncut =>
    intro before after split
    rcases before with _ | ⟨b, before⟩
    · exact absurd (List.cons.inj split).1 (by decide)
    obtain ⟨rfl, later⟩ := List.cons.inj split
    -- the comma is neither of the quotes, so that it stands among the escaped characters
    rcases List.append_eq_append_iff.mp later with ⟨rest, _, last⟩ | ⟨rest, whole, _⟩
    · rcases rest with _ | ⟨r, rest⟩
      · exact absurd (List.cons.inj last).1 (by decide)
      · exact absurd (List.cons.inj last).2 (by simp)
    · obtain ⟨e, reached⟩ := run_prefix_escapeQuotes false whole
      rw [Scan.run_cons, opened, reached]
      exact fun top => absurd top.1 (by simp [Scan.quoted])
  case nested =>
    have stays : staysNested (Scan.quoted false) (escapeQuotes t) = true :=
      staysNested_of_prefix fun before after split => by
        obtain ⟨e, reached⟩ := run_prefix_escapeQuotes false split
        rw [reached]
        exact Int.le_refl 0
    rw [isWellNested, inQuotes, staysNested, opened, staysNested_append, stays, inside]
    rfl
  case trimmed =>
    refine trim_eq_self ?_ ?_
    · rintro c ⟨rfl⟩
      rfl
    · intro c last
      have split : inQuotes t = (.char '"' :: escapeQuotes t) ++ [.char '"'] := rfl
      rw [split, List.getLast?_concat] at last
      cases last
      rfl
  case nonempty => exact List.cons_ne_nil _ _

end GuardedConsole.Argument
