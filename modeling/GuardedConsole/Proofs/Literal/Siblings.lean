import GuardedConsole.Proofs.Json.Nesting
import GuardedConsole.Proofs.Literal.Combining
import GuardedConsole.Proofs.Literal.Rewriting

/-!
# Entries and their siblings

An entry is plain if it has no backslashes, and no quoted text of it a quote of the other kind inside.
JSON accepts an object of plain entries exactly if it accepts each of them alone
(`isJson_of_literalText`).
-/

namespace GuardedConsole.Literal

open Text Argument Json

variable {e : Entry} {es : List Entry} {args : List Text}

/-- The text has no backslashes, and no quoted text of it has a quote of the other kind inside. -/
structure Entry.Plain (e : Entry) : Prop where
  noBackslash : .char '\\' ∉ e.text
  unmixed : isUnmixed {} e.text = true

theorem Entry.Plain.written (plain : e.Plain) :
    .char '\\' ∉ e.written ∧ isUnmixed {} e.written = true := by
  obtain ⟨_, words⟩ := e.words
  constructor
  · intro member
    rw [Entry.written, List.mem_append, List.mem_append] at member
    rcases member with (inKey | mark) | inText
    · exact not_mem_of_words words rfl inKey
    · exact absurd mark (by decide)
    · exact plain.noBackslash inText
  · have noQuotes : ∀ c ∈ e.key ++ ": ".toText, isQuote c = false := fun c member => by
      have calm := e.calm_key c member
      simp only [isCalm, Bool.and_eq_true, Bool.not_eq_true'] at calm
      exact calm.1.1
    have agree := Scan.agree_of_atTop (closed_of_calm e.calm_key).1 Scan.atTop_start
    rw [Entry.written, isUnmixed_append, isUnmixed_of_no_quotes noQuotes, isUnmixed_of_agree agree,
      plain.unmixed]
    rfl

theorem isUnmixed_joinWith (closed : ∀ a ∈ args, Closed a)
    (unmixed : ∀ a ∈ args, isUnmixed {} a = true) :
    isUnmixed {} (joinWith ", ".toText args) = true := by
  induction args with
  | nil => rfl
  | cons a args ih =>
    obtain ⟨first, others⟩ := List.forall_mem_cons.mp unmixed
    obtain ⟨closedFirst, closedOthers⟩ := List.forall_mem_cons.mp closed
    cases args with
    | nil => exact first
    | cons b args =>
      have comma : Closed ", ".toText := ⟨rfl, rfl⟩
      have agree := Scan.agree_of_atTop (closedFirst.append comma) Scan.atTop_start
      rw [joinWith_cons_cons, isUnmixed_append, isUnmixed_append, first,
        isUnmixed_of_no_quotes (by decide), isUnmixed_of_agree agree, ih closedOthers others]
      rfl

/-- A member that is written as the entry is, but for a space before it, stands for the entry. -/
theorem splits_of_written {m : MemberText} (stands : Stands m.text m.value)
    (same : m.written = e.rewritten ∨ m.written = .char ' ' :: e.rewritten) :
    ∃ members, e.Splits members := by
  rcases same with same | same
  · exact ⟨[m], List.cons_ne_nil _ _, List.forall_mem_singleton.mpr stands, same.symm⟩
  · obtain ⟨before, body, between, text, name, value, spaces, spelled⟩ := m
    cases before with
    | nil => exact absurd (List.cons.inj same).1 (by decide)
    | cons c before =>
      let bare : MemberText := ⟨before, body, between, text, name, value,
        fun d member => spaces d (List.mem_cons_of_mem c member), spelled⟩
      exact ⟨[bare], List.cons_ne_nil _ _, List.forall_mem_singleton.mpr stands,
        (List.cons.inj same).2.symm⟩

theorem pieces_written {first : Entry} :
    pieces {} (joinWith ", ".toText ((first :: es).map Entry.written)) =
      first.written :: es.map fun e => .char ' ' :: e.written := by
  have closed : ∀ t ∈ (first :: es).map Entry.written, Closed t :=
    List.forall_mem_map.mpr fun e _ => e.standalone_written.closed
  have uncut : ∀ t ∈ (first :: es).map Entry.written, Uncut t :=
    List.forall_mem_map.mpr fun e _ => e.standalone_written.uncut
  have space : ∀ c ∈ " ".toText, isCalm c = true := by decide
  rw [List.map_cons] at closed uncut ⊢
  refine (pieces_joinWith space (fun t listed => closed t (List.dropLast_subset _ listed)) uncut
    Scan.atTop_start).trans ?_
  rw [List.map_map]
  rfl

theorem plain_joined (plain : ∀ e ∈ es, e.Plain) :
    .char '\\' ∉ joinWith ", ".toText (es.map Entry.written) ∧
      isUnmixed {} (joinWith ", ".toText (es.map Entry.written)) = true := by
  constructor
  · intro member
    rcases mem_joinWith member with mark | ⟨_, written, inEntry⟩
    · exact absurd mark (by decide)
    · obtain ⟨e, inside, rfl⟩ := List.mem_map.mp written
      exact (plain e inside).written.1 inEntry
  · exact isUnmixed_joinWith (List.forall_mem_map.mpr fun e _ => e.standalone_written.closed)
      (List.forall_mem_map.mpr fun e inside => (plain e inside).written.2)

/-- If members are written as the entries of a list are, each entry is written as one of them is, but
for a space before it. -/
theorem exists_member_written {first : Entry} {members : List MemberText}
    (same : members.map MemberText.written =
      first.rewritten :: (es.map fun e => .char ' ' :: e.written).map asJson)
    (listed : e ∈ first :: es) :
    ∃ m ∈ members, m.written = e.rewritten ∨ m.written = .char ' ' :: e.rewritten := by
  rcases List.mem_cons.mp listed with rfl | later
  · have member : e.rewritten ∈ members.map MemberText.written := by
      rw [same]
      exact List.mem_cons_self
    obtain ⟨m, inside, written⟩ := List.mem_map.mp member
    exact ⟨m, inside, .inl written⟩
  · have member : .char ' ' :: e.rewritten ∈ members.map MemberText.written := by
      rw [same, ← e.asJson_written, ← asJson_cons (by decide) (by decide) (by decide)]
      exact List.mem_cons_of_mem _ (List.mem_map_of_mem (List.mem_map_of_mem later))
    obtain ⟨m, inside, written⟩ := List.mem_map.mp member
    exact ⟨m, inside, .inr written⟩

/-- If JSON accepts an object of plain entries, it accepts each of them alone. -/
theorem isJson_of_literalText (plain : ∀ e ∈ es, e.Plain) (whole : IsJson (literalText es)) :
    ∀ e ∈ es, IsJson (literalText [e]) := by
  intro e listed
  obtain ⟨all, accepted⟩ := whole
  obtain ⟨noBackslash, unmixed⟩ := plain_joined plain
  have noBackslash' : .char '\\' ∉ asJson (joinWith ", ".toText (es.map Entry.written)) :=
    fun member => (mem_asJson member).elim (by decide) noBackslash
  have whole : asJson (literalText es) =
      .char '\x7b' :: (asJson (joinWith ", ".toText (es.map Entry.written)) ++ [.char '\x7d']) := by
    rw [asJson_literalText, asJson_joinWith]
  rw [whole] at accepted
  have paired := pairsQuotes_of_read (by simp [noBackslash']) accepted
  rw [pairsQuotes_cons (by decide)] at paired
  have cut := pieces_asJson noBackslash unmixed paired
  rw [read_eq_ok_iff, stands_braces_iff] at accepted
  rcases accepted with ⟨spaces, _⟩ | ⟨members, filled, stands, same, _⟩
  · have within := infix_joinWith ", ".toText (List.mem_map_of_mem (f := Entry.rewritten) listed)
    rw [← asJson_joinWith] at within
    exact absurd (spaces _ (within.subset List.mem_cons_self)) (by decide)
  · obtain ⟨first, others, rfl⟩ := List.exists_cons_of_ne_nil (List.ne_nil_of_mem listed)
    rw [same, pieces_members filled stands (same ▸ noBackslash'), pieces_written, List.map_cons,
      first.asJson_written] at cut
    obtain ⟨m, inside, same⟩ := exists_member_written cut listed
    obtain ⟨parts, splits⟩ := splits_of_written (stands m inside) same
    exact ⟨_, read_entry_iff.mpr ⟨parts, splits, rfl⟩⟩

end GuardedConsole.Literal
