import GuardedConsole.Proofs.Json.Nesting
import GuardedConsole.Proofs.Json.Written

/-!
# The layout of written documents

A written document is made up of strings, of characters that need no quotes, and of brackets with
parts between them. What is known of these, and goes over to texts that are put together of them, is
known of all that is written: `Composes.written`. So no comma of a written list separates arguments
if no text in it ends with a backslash (`composes_level`).
-/

namespace GuardedConsole.Json

open Text Argument

variable {c : CodePoint} {t s : Text} {j : Json} {items : List Json} {members : List (Text × Json)}
  {p q : Text → Prop} {level : Nat}

/-- Every text of the document satisfies `p`, at any depth, and so does every name. -/
inductive AllTexts (p : Text → Prop) : Json → Prop where
  | null : AllTexts p .null
  | bool (b : Bool) : AllTexts p (.bool b)
  | int (i : Int) : AllTexts p (.int i)
  | float (x : Number.Binary64) : AllTexts p (.float x)
  | text {t : Text} : p t → AllTexts p (.text t)
  | list {items : List Json} : (∀ item ∈ items, AllTexts p item) → AllTexts p (.list items)
  | record {members : List (Text × Json)} : (∀ m ∈ members, p m.1) →
    (∀ m ∈ members, AllTexts p m.2) → AllTexts p (.record members)

theorem AllTexts.mono (all : AllTexts p j) (le : ∀ t, p t → q t) : AllTexts q j := by
  induction all with
  | null => exact .null
  | bool b => exact .bool b
  | int i => exact .int i
  | float x => exact .float x
  | text holds => exact .text (le _ holds)
  | list _ ih => exact .list ih
  | record names _ ih => exact .record (fun m listed => le _ (names m listed)) ih

theorem Readable.allTexts (readable : Readable j) : AllTexts IsWhole j := by
  induction readable with
  | null => exact .null
  | bool b => exact .bool b
  | int _ => exact .int _
  | text whole => exact .text whole
  | list _ ih => exact .list ih
  | record _ names _ ih => exact .record names ih

/-- The characters outside strings, except for brackets and commas. -/
def isBare (c : CodePoint) : Bool :=
  isAtomic c || isSpace c || c == ':'

theorem isBare_of_space (space : isSpace c = true) : isBare c = true := by
  simp [isBare, space]

theorem isCalm_of_bare (bare : isBare c = true) : isCalm c = true := by
  simp only [isBare, Bool.or_eq_true, beq_iff_eq] at bare
  rcases bare with (atomic | space) | rfl
  · exact isCalm_of_atomic atomic
  · exact isCalm_of_space space
  · rfl

/-- What goes over from the parts of written documents to the whole: `value` is known of written
values, and `content` of what stands between brackets. -/
structure Composes (p value content : Text → Prop) : Prop where
  bare : ∀ t : Text, (∀ c ∈ t, isBare c = true) → value t
  string : ∀ s : Text, p s → value (stringText s)
  append : ∀ t u : Text, value t → value u → value (t ++ u)
  joined : ∀ parts : List Text, (∀ t ∈ parts, value t) → content (joinWith [.char ','] parts)
  closing : ∀ t u : Text, content t → value u → content (t ++ u)
  list : ∀ t : Text, content t → value (.char '[' :: (t ++ [.char ']']))
  record : ∀ t : Text, content t → value (.char '\x7b' :: (t ++ [.char '\x7d']))

namespace Composes

variable {value content : Text → Prop}

theorem line (composes : Composes p value content) (level : Nat) : value (newLine level) :=
  composes.bare _ fun c member => isBare_of_space (isSpace_of_mem_newLine level c member)

theorem ofList (composes : Composes p value content)
    (each : ∀ item ∈ items, value (writeAt (level + 1) item)) : value (writeAt level (.list items)) := by
  cases items with
  | nil =>
    rw [writeAt]
    exact composes.list [] (composes.joined [] (List.forall_mem_nil _))
  | cons item items =>
    have lines : ∀ t ∈ (item :: items).map fun i => newLine (level + 1) ++ writeAt (level + 1) i,
        value t := by
      intro t listed
      obtain ⟨i, inside, rfl⟩ := List.mem_map.mp listed
      exact composes.append _ _ (composes.line _) (each i inside)
    have inside := composes.closing _ _ (composes.joined _ lines) (composes.line level)
    rw [← writeItems_eq] at inside
    rw [writeAt]
    simpa using composes.list _ inside

theorem ofRecord (composes : Composes p value content) (names : ∀ m ∈ members, p m.1)
    (each : ∀ m ∈ members, value (writeAt (level + 1) m.2)) :
    value (writeAt level (.record members)) := by
  cases members with
  | nil =>
    rw [writeAt]
    exact composes.record [] (composes.joined [] (List.forall_mem_nil _))
  | cons m members =>
    have colon : value ": ".toText := composes.bare _ (by decide)
    have lines : ∀ t ∈ (m :: members).map (lineOf (level + 1)), value t := by
      intro t listed
      obtain ⟨m, inside, rfl⟩ := List.mem_map.mp listed
      have name := composes.append _ _ (composes.line (level + 1))
        (composes.string _ (names m inside))
      exact composes.append _ _ (composes.append _ _ name colon) (each m inside)
    have inside := composes.closing _ _ (composes.joined _ lines) (composes.line level)
    rw [← writeMembers_eq, lineOf] at inside
    obtain ⟨name, item⟩ := m
    rw [writeAt]
    simpa using composes.record _ inside

theorem ofInteger (composes : Composes p value content) (i : Int) : value (Number.intText i) := by
  apply composes.bare
  intro c member
  have atomic : isAtomic c = true := by
    unfold Number.intText at member
    split at member
    · rcases List.mem_cons.mp member with rfl | digit
      · rfl
      · exact isAtomic_of_digit (Number.natText_digits _ c digit)
    · exact isAtomic_of_digit (Number.natText_digits _ c member)
  simp [isBare, atomic]

/-- What is known of the parts of a written document is known of the whole. -/
theorem written (composes : Composes p value content) (readable : Readable j) (all : AllTexts p j)
    (level : Nat) : value (writeAt level j) := by
  induction readable generalizing level with
  | null =>
    rw [writeAt]
    exact composes.bare _ (by decide)
  | bool b =>
    cases b <;> rw [writeAt] <;> exact composes.bare _ (by decide)
  | int _ =>
    rw [writeAt]
    exact composes.ofInteger _
  | text _ =>
    cases all with
    | text holds =>
      rw [writeAt]
      exact composes.string _ holds
  | list _ ih =>
    cases all with
    | list each => exact composes.ofList fun item listed => ih item listed (each item listed) _
  | record _ _ _ ih =>
    cases all with
    | record names each =>
      exact composes.ofRecord names fun m listed => ih m listed (each m listed) _

end Composes

/-! ### Strings -/

section Strings

variable {body content : Text}

/-- A quote inside a string stands behind a backslash. -/
theorem Denotes.staysQuoted (denotes : Denotes body content) : StaysQuoted '"' body := by
  induction denotes with
  | nil => exact staysQuoted_nil _
  | @plain c _ _ noQuote _ _ _ ih =>
    have first : StaysQuoted '"' [c] := staysQuoted_of_not_mem (by simpa using Ne.symm noQuote)
    exact staysQuoted_append first ih
  | @escape e _ _ _ _ _ ih =>
    have backslash : StaysQuoted '"' [.char '\\'] := staysQuoted_of_not_mem (by decide)
    have escape : StaysQuoted '"' ([.char '\\'] ++ [e]) :=
      staysQuoted_concat_iff.mpr ⟨backslash, fun _ => rfl⟩
    exact staysQuoted_append escape ih
  | @unit w x y z _ _ _ read _ ih =>
    have noQuote : .char '"' ∉ [.char '\\', .char 'u', w, x, y, z] := by
      simpa using not_mem_of_hexPoint? (c := '"') read rfl
    exact staysQuoted_append (staysQuoted_of_not_mem noQuote) ih

/-- A string ends with a backslash only if its content does. -/
theorem Denotes.getLast?_eq (denotes : Denotes body content)
    (last : body.getLast? = some (.char '\\')) : content.getLast? = some (.char '\\') := by
  induction denotes with
  | nil => cases last
  | @plain c body content _ noBackslash _ denotes ih =>
    cases body with
    | nil => exact (noBackslash (Option.some.inj last)).elim
    | cons d body =>
      rw [List.getLast?_cons_cons] at last
      rw [List.getLast?_cons, ih last]
      rfl
  | @escape e point body content known denotes ih =>
    cases body with
    | nil =>
      obtain rfl : e = '\\' := Option.some.inj last
      cases known
      cases denotes
      rfl
    | cons d body =>
      rw [List.getLast?_cons_cons, List.getLast?_cons_cons] at last
      rw [List.getLast?_cons, ih last]
      rfl
  | @unit w x y z point body content read denotes ih =>
    cases body with
    | nil =>
      have noBackslash := not_mem_of_hexPoint? (c := '\\') read rfl
      rw [show z = '\\' from Option.some.inj last] at noBackslash
      exact (noBackslash (by simp)).elim
    | cons d body =>
      have behind := ih (by simpa using last)
      rcases putEscape_cases point (d :: body) content with ⟨k, l, after, _, _, rfl, _, joined⟩ | put
      · rw [joined, List.getLast?_cons]
        cases after with
        | nil => cases behind
        | cons a after =>
          rw [List.getLast?_cons_cons] at behind
          rw [behind]
          rfl
      · rw [put, List.getLast?_cons, behind]
        rfl

theorem level_stringText {k : Int} (whole : s.IsWhole) (ends : s.getLast? ≠ some (.char '\\')) :
    Level k (stringText s) := by
  have denotes := denotes_escaped whole
  exact level_staysQuoted denotes.staysQuoted fun last => ends (denotes.getLast?_eq last)

end Strings

/-- Commas stand between brackets, as long as every string ends with its quote. -/
theorem composes_level : Composes (fun s => s.IsWhole ∧ s.getLast? ≠ some (.char '\\')) (Level 1)
    (Level 0) where
  bare t calm := level_of_calm fun c member => isCalm_of_bare (calm c member)
  string s harmless := level_stringText harmless.1 harmless.2
  append t u := Level.append
  joined parts each := level_joinWith fun t listed => (each t listed).mono (by decide)
  closing t u content value := content.append (value.mono (by decide))
  list t content := content.bracketed (by decide) (by decide)
  record t content := content.bracketed (by decide) (by decide)

end GuardedConsole.Json
