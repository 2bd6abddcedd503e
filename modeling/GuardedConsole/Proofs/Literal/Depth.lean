import GuardedConsole.Proofs.Text.Joining
import GuardedConsole.Proofs.Text.Trimming
import GuardedConsole.Value.Literal

/-!
# Parts of an object

An object that is read entry by entry is read from parts of its text that are shorter than it. So the
depth that is allowed for objects inside objects does not matter once it is more than the length of
the text: `readNested_eq_read`.
-/

namespace GuardedConsole.Literal

open Text Argument

variable {t u key text : Text} {value value' : Text → Except Failure Value} {now : Time.Moment}

/-! ### Parts -/

theorem infix_trim (t : Text) : t.trim <:+: t := by
  obtain ⟨before, after, split, _⟩ := trim_split t
  exact ⟨before, after, split.symm⟩

theorem infix_of_entry (entry : looseEntry? t = some (key, text)) : text <:+: t := by
  unfold looseEntry? at entry
  split at entry
  · rename_i cut
    dsimp only at entry
    split at entry
    · cases entry
      obtain ⟨_, rfl⟩ := cutAt_eq_iff.mp cut
      exact (infix_trim _).trans ((List.suffix_cons _ _).trans (List.suffix_append _ _)).isInfix
    · cases entry
  · cases entry

theorem infix_of_mem_pieces (scan : Scan) (t : Text) :
    ∃ first others, pieces scan t = first :: others ∧ first <+: t ∧ ∀ p ∈ others, p <:+: t := by
  induction t generalizing scan with
  | nil => exact ⟨[], [], rfl, List.nil_prefix, List.forall_mem_nil _⟩
  | cons c t ih =>
    obtain ⟨first, others, found, begins, inside⟩ := ih (scan.step c)
    have later : ∀ p ∈ others, p <:+: c :: t := fun p listed =>
      (inside p listed).trans (List.suffix_cons c t).isInfix
    rw [pieces, found]
    split
    · refine ⟨[], first :: others, rfl, List.nil_prefix, List.forall_mem_cons.mpr ⟨?_, later⟩⟩
      exact begins.isInfix.trans (List.suffix_cons c t).isInfix
    · exact ⟨c :: first, others, rfl, List.cons_prefix_cons.mpr ⟨rfl, begins⟩, later⟩

theorem withoutEmptyLast_subset (ps : List Text) : withoutEmptyLast ps ⊆ ps := by
  fun_induction withoutEmptyLast ps with
  | case1 => exact List.Subset.refl _
  | case2 => exact List.nil_subset _
  | case3 => exact List.Subset.refl _
  | case4 p q ps ih => exact List.cons_subset_cons p ih

theorem infix_of_mem_split (listed : u ∈ split t) : u <:+: t := by
  obtain ⟨piece, inside, rfl⟩ := List.mem_map.mp (withoutEmptyLast_subset _ listed)
  refine (infix_trim piece).trans ?_
  obtain ⟨first, others, found, begins, later⟩ := infix_of_mem_pieces {} t
  rw [found] at inside
  rcases List.mem_cons.mp inside with rfl | other
  · exact begins.isInfix
  · exact later piece other

theorem infix_objectContent (t : Text) : objectContent t <:+: t := by
  unfold objectContent
  split
  · exact (List.dropLast_prefix _).isInfix.trans (List.drop_suffix 1 t).isInfix
  · exact (List.drop_suffix 1 t).isInfix

theorem length_objectContent_lt (filled : t ≠ []) : (objectContent t).length < t.length := by
  have positive := List.length_pos_iff.mpr filled
  unfold objectContent
  split
  · rw [List.length_dropLast, List.length_drop]
    omega
  · rw [List.length_drop]
    omega

/-- The text of a value is shorter than the object that it stands in. -/
theorem length_of_entry (filled : t ≠ []) (listed : u ∈ split (objectContent t))
    (entry : looseEntry? u = some (key, text)) : text.length < t.length :=
  Nat.lt_of_le_of_lt ((infix_of_entry entry).trans (infix_of_mem_split listed)).length_le
    (length_objectContent_lt filled)

/-! ### Depth -/

theorem readEntries_congr {texts : List Text} (entries : Table Value)
    (same : ∀ u ∈ texts, ∀ key text, looseEntry? u = some (key, text) → value text = value' text) :
    readEntries value entries texts = readEntries value' entries texts := by
  induction texts generalizing entries with
  | nil => rfl
  | cons u texts ih =>
    obtain ⟨first, others⟩ := List.forall_mem_cons.mp same
    rw [readEntries, readEntries]
    split
    · exact ih entries others
    · rename_i key text entry
      rw [first key text entry]
      split
      · rfl
      · exact ih _ others

theorem readObject_congr (filled : t ≠ []) (same : ∀ s, s.length < t.length → value s = value' s) :
    readObject value t = readObject value' t := by
  have entries : readEntries value [] (split (objectContent t)) =
      readEntries value' [] (split (objectContent t)) :=
    readEntries_congr [] fun u listed key text entry =>
      same text (length_of_entry filled listed entry)
  have loosely : readLoosely value t = readLoosely value' t := by
    rw [readLoosely, readLoosely, entries]
  rw [readObject, readObject, loosely]

theorem readWith_congr (same : ∀ s, s.length < t.length → value s = value' s) :
    readWith value now t = readWith value' now t := by
  cases t with
  | nil => rfl
  | cons c t =>
    unfold readWith
    rw [readObject_congr (List.cons_ne_nil c t) same]

theorem readNested_congr (now : Time.Moment) {depth depth' : Nat} (t : Text)
    (deep : t.length < depth) (deep' : t.length < depth') :
    readNested now depth t = readNested now depth' t := by
  obtain ⟨depth, rfl⟩ := Nat.exists_eq_succ_of_ne_zero (Nat.ne_zero_of_lt deep)
  obtain ⟨depth', rfl⟩ := Nat.exists_eq_succ_of_ne_zero (Nat.ne_zero_of_lt deep')
  rw [readNested, readNested]
  refine readWith_congr fun s shorter => ?_
  exact readNested_congr now s (by omega) (by omega)
termination_by t.length

/-- Any depth of more than the length of the text gives what the text is read as. -/
theorem readNested_eq_read {depth : Nat} (deep : t.length < depth) :
    readNested now depth t = read now t :=
  readNested_congr now t deep (Nat.lt_succ_self _)

end GuardedConsole.Literal
