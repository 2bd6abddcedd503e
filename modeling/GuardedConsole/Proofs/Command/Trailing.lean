import GuardedConsole.Proofs.Argument.Scanning
import GuardedConsole.Proofs.Command.Grammar

/-!
# What follows a call

The parenthesis that closes the arguments of a call ends the command: `nothing_follows_call` says that
no text but one newline may stand behind it, whatever it is and however it ends.
-/

namespace GuardedConsole.Command

open Argument Text

variable {head A X Y core : Text} {s : Shape}

/-- What stands before the parentheses: a path, or `new`, whitespace and the name of a class. -/
inductive IsCallee : Text → Prop where
  | path {path : Path} : path.WellNamed → IsCallee path.text
  | construction {blanks name : Text} : blanks ≠ [] → (∀ c ∈ blanks, isBlank c = true) →
    isName name = true → IsCallee ("new".toText ++ blanks ++ name)

theorem IsCallee.unopened (callee : IsCallee head) : CodePoint.char '(' ∉ head := by
  cases callee with
  | path named => exact open_not_mem_path named
  | construction _ blank named =>
    intro member
    rcases List.mem_append.mp member with before | inName
    · rcases List.mem_append.mp before with inWord | inBlanks
      · exact absurd inWord (by decide)
      · exact absurd (blank _ inBlanks) (by decide)
    · exact absurd ((isName_iff.mp named).2 _ inName) (by decide)

/-- A command with an opening parenthesis is a call whose arguments close nothing they did not open.
-/
theorem Written.exists_arguments (written : Written core s) (opened : CodePoint.char '(' ∈ core) :
    ∃ front A, CodePoint.char '(' ∉ front ∧ core = front ++ parenthesized A ∧
      isWellNested A = true := by
  cases written with
  | property named => exact (open_not_mem_path named opened).elim
  | call named nested => exact ⟨_, _, open_not_mem_path named, rfl, nested⟩
  | construct _ blank named nested =>
    exact ⟨_, _, open_not_mem_construction blank named, rfl, nested⟩

/-- Behind arguments that close what they open, one more closing parenthesis closes nothing. -/
theorem not_isWellNested_of_closed (closed : Closed A) :
    isWellNested (A ++ .char ')' :: Y) = false := by
  have below : isWellNested (.char ')' :: Y) = false := rfl
  rw [isWellNested_append closed, below, Bool.and_false]

/-- The text up to the first parenthesis and the arguments are told apart in one way only. -/
theorem not_written_of_more (unopened : CodePoint.char '(' ∉ head) (closed : Closed A)
    (more : X ≠ []) : ¬Written (head ++ parenthesized A ++ X) s := by
  intro written
  obtain ⟨front, B, absent, split, nested⟩ := written.exists_arguments (by simp [parenthesized])
  have behindHead : cutAt '(' (head ++ parenthesized A ++ X) =
      (head, some (A ++ [.char ')'] ++ X)) := by
    rw [parenthesized, List.append_assoc, List.cons_append]
    exact cutAt_append unopened
  have behindFront : cutAt '(' (head ++ parenthesized A ++ X) = (front, some (B ++ [.char ')'])) := by
    rw [split]
    exact cutAt_append absent
  have same : A ++ [.char ')'] ++ X = B ++ [.char ')'] := by
    rw [behindHead] at behindFront
    exact Option.some.inj (Prod.mk.inj behindFront).2
  -- the last character of `X` is the parenthesis behind `B`, the one behind `A` is inside `B`
  obtain ⟨Y, last, rfl⟩ := (List.eq_nil_or_concat X).resolve_left more
  rw [List.concat_eq_append, ← List.append_assoc] at same
  obtain ⟨rfl, _⟩ := List.append_inj' same rfl
  rw [List.append_assoc, List.singleton_append, not_isWellNested_of_closed closed] at nested
  cases nested

/-- A call or construction whose arguments end outside quoted texts and brackets is the whole command:
with anything behind it but one newline the text is no command, and reading it does not fail. -/
theorem nothing_follows_call (now : Time.Moment) (callee : IsCallee head) (closed : Closed A)
    (more : X ≠ []) (noBreak : X ≠ [.char '\n']) :
    parse now (head ++ parenthesized A ++ X) = .ok none := by
  refine parse_of_not_reads fun s reads => ?_
  obtain ⟨core, rfl | broken, written⟩ := reads
  · exact not_written_of_more callee.unopened closed more written
  · obtain ⟨Y, last, rfl⟩ := (List.eq_nil_or_concat X).resolve_left more
    rw [List.concat_eq_append, ← List.append_assoc] at broken
    obtain ⟨rfl, same⟩ := List.append_inj' broken rfl
    have filled : Y ≠ [] := by
      rintro rfl
      exact noBreak same
    exact not_written_of_more callee.unopened closed filled written

/-- A call behind a call is refused, although the whole text ends with a closing parenthesis. -/
theorem nothing_follows_greeting :
    IsCallee "chat.say".toText ∧ Closed "\"(\", [1]".toText ∧ ".then(2)".toText ≠ [] ∧
      ".then(2)".toText ≠ [.char '\n'] ∧
      parse ⟨0, none, by decide⟩
        ("chat.say".toText ++ parenthesized "\"(\", [1]".toText ++ ".then(2)".toText) = .ok none := by
  have named : Path.WellNamed ⟨"chat".toText, ["say".toText], by decide⟩ := by
    unfold Path.WellNamed
    decide
  have callee : IsCallee "chat.say".toText := .path named
  have closed : Closed "\"(\", [1]".toText := ⟨by decide, by decide⟩
  have more : ".then(2)".toText ≠ [] := by decide
  have noBreak : ".then(2)".toText ≠ [.char '\n'] := by decide
  exact ⟨callee, closed, more, noBreak, nothing_follows_call _ callee closed more noBreak⟩

end GuardedConsole.Command
