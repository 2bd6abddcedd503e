import Mathlib.Data.List.Induction
import GuardedConsole.Named

/-!
# Putting several values

`putAll` puts values one after another into a table. Names that the table does not have go behind it
as they would into an empty table (`putAll_append`), and entries of a class of names are put as if
there were no others (`filter_putAll`). Names stand in the order in which they first came
(`names_ofList`), each with the value that came last with it (`find?_ofList_iff`). In a table without
repeated names an entry has one place (`exists_place`), where it is found, changed and erased.
-/

namespace GuardedConsole.Table

variable {α : Type} {known added : Table α} {entry : Text × α}

/-- The table after its new entries; of those with the same name the last value counts. -/
def putAll (known : Table α) (added : List (Text × α)) : Table α :=
  added.foldl (fun table entry => put entry.1 entry.2 table) known

theorem putAll_cons (known : Table α) (entry : Text × α) (added : List (Text × α)) :
    known.putAll (entry :: added) = putAll (put entry.1 entry.2 known) added := rfl

theorem putAll_append_right (known : Table α) (added others : List (Text × α)) :
    known.putAll (added ++ others) = (known.putAll added).putAll others :=
  List.foldl_append

theorem mem_of_putAll (listed : entry ∈ known.putAll added) : entry ∈ known ∨ entry ∈ added := by
  induction added generalizing known with
  | nil => exact .inl listed
  | cons first added ih =>
    rcases ih listed with before | later
    · rcases mem_put before with rfl | old
      · exact .inr List.mem_cons_self
      · exact .inl old
    · exact .inr (List.mem_cons_of_mem _ later)

theorem mem_names_putAll (listed : entry ∈ added ∨ entry.1 ∈ known.names) :
    entry.1 ∈ (known.putAll added).names := by
  induction added generalizing known with
  | nil => exact listed.resolve_left List.not_mem_nil
  | cons first added ih =>
    rw [putAll_cons]
    rcases listed with inAdded | before
    · rcases List.mem_cons.mp inAdded with rfl | later
      · exact ih (.inr (mem_names_put _ _ known))
      · exact ih (.inl later)
    · exact ih (.inr (names_subset_put _ _ known before))

/-- New names go behind those that are there. -/
theorem putAll_append (new : ∀ entry ∈ added, entry.1 ∉ known.names) (table : Table α) :
    putAll (known ++ table) added = known ++ table.putAll added := by
  induction added generalizing table with
  | nil => rfl
  | cons entry added ih =>
    obtain ⟨first, others⟩ := List.forall_mem_cons.mp new
    rw [putAll_cons, put_append first, ih others, putAll_cons]

/-- Distinct new names all go behind those that are there. -/
theorem putAll_of_nodup (distinct : (known.names ++ names added).Nodup) :
    known.putAll added = known ++ added := by
  induction added generalizing known with
  | nil => exact (List.append_nil known).symm
  | cons entry added ih =>
    have new : entry.1 ∉ known.names := fun inKnown =>
      (List.nodup_append.mp distinct).2.2 _ inKnown _ List.mem_cons_self rfl
    have later : (names (known ++ [entry]) ++ names added).Nodup := by
      simpa [names] using distinct
    rw [putAll_cons, put_of_not_mem new, ih later, List.append_assoc]
    rfl

theorem ofList_of_nodup (distinct : (names added).Nodup) : ofList added = added :=
  @putAll_of_nodup α [] added distinct

theorem filter_put (p : Text → Bool) (name : Text) (value : α) (table : Table α) :
    (put name value table).filter (fun entry => p entry.1) =
      if p name then put name value (table.filter fun entry => p entry.1)
      else table.filter fun entry => p entry.1 := by
  induction table with
  | nil => cases kept : p name <;> simp [put, kept]
  | cons entry table ih =>
    obtain ⟨n, w⟩ := entry
    rw [put]
    by_cases same : n = name
    · subst same
      cases kept : p n <;> simp [kept, put]
    · rw [if_neg same, List.filter_cons, List.filter_cons, ih]
      cases kept : p n
      · rfl
      · cases kept' : p name <;> simp [put, same]

theorem filter_putAll (p : Text → Bool) (known : Table α) (added : List (Text × α)) :
    (known.putAll added).filter (fun entry => p entry.1) =
      putAll (known.filter fun entry => p entry.1) (added.filter fun entry => p entry.1) := by
  induction added generalizing known with
  | nil => rfl
  | cons entry added ih =>
    rw [putAll_cons, ih, filter_put, List.filter_cons]
    cases kept : p entry.1 <;> simp [putAll_cons]

/-! ### Values that are mapped -/

section Mapping

variable {β : Type}

/-- The table with a function of each value. -/
def mapped (f : α → β) (table : Table α) : Table β :=
  table.map fun entry => (entry.1, f entry.2)

theorem mapped_put (f : α → β) (name : Text) (value : α) (table : Table α) :
    (put name value table).mapped f = put name (f value) (table.mapped f) := by
  induction table with
  | nil => rfl
  | cons entry table ih =>
    obtain ⟨n, w⟩ := entry
    rw [put]
    by_cases same : n = name
    · subst same
      simp [mapped, put]
    · rw [if_neg same]
      show (n, f w) :: (put name value table).mapped f = _
      rw [ih]
      simp [mapped, put, same]

theorem mapped_putAll (f : α → β) (known added : Table α) :
    (known.putAll added).mapped f = putAll (known.mapped f) (added.mapped f) := by
  induction added generalizing known with
  | nil => rfl
  | cons entry added ih =>
    rw [putAll_cons, ih, mapped_put]
    rfl

end Mapping

/-! ### Which name comes where, and with which value -/

theorem names_put (name : Text) (value : α) (table : Table α) :
    (put name value table).names =
      if name ∈ table.names then table.names else table.names ++ [name] := by
  by_cases known : name ∈ table.names
  · rw [if_pos known]
    induction table with
    | nil => cases known
    | cons entry table ih =>
      rw [put]
      split
      · rfl
      · rename_i other
        have later := (List.mem_cons.mp known).resolve_left fun same => other same.symm
        rw [names, List.map_cons, ← names, ih later]
        rfl
  · rw [if_neg known, put_of_not_mem known, names, List.map_append]
    rfl

theorem mem_names_of_put {name other : Text} {value : α} {table : Table α}
    (listed : other ∈ (put name value table).names) : other = name ∨ other ∈ table.names := by
  rw [names_put] at listed
  split at listed
  · exact .inr listed
  · rcases List.mem_append.mp listed with old | new
    · exact .inr old
    · exact .inl (List.mem_singleton.mp new)

/-- Names stand in the order in which they first came. -/
theorem names_ofList (entries : List (Text × α)) :
    (ofList entries).names = (entries.map Prod.fst).eraseDups := by
  induction entries using List.reverseRecOn with
  | nil => rfl
  | append_singleton entries entry ih =>
    have last : ofList (entries ++ [entry]) = put entry.1 entry.2 (ofList entries) :=
      putAll_append_right [] entries [entry]
    rw [last, names_put, ih, List.map_append, List.eraseDups_append]
    by_cases known : entry.1 ∈ entries.map Prod.fst
    · simp [List.removeAll, known]
    · simp [List.removeAll, known, List.eraseDups_cons]

/-- Under a name stands the value that came last with it. -/
theorem find?_ofList_iff {entries : List (Text × α)} {name : Text} {value : α} :
    find? name (ofList entries) = some value ↔
      ∃ before after, entries = before ++ (name, value) :: after ∧ name ∉ after.map Prod.fst := by
  induction entries using List.reverseRecOn with
  | nil => simp [ofList, find?]
  | append_singleton entries entry ih =>
    have last : ofList (entries ++ [entry]) = put entry.1 entry.2 (ofList entries) :=
      putAll_append_right [] entries [entry]
    rw [last, find_put]
    constructor
    · intro found
      by_cases same : entry.1 = name
      · rw [if_pos same] at found
        obtain ⟨entryName, entryValue⟩ := entry
        cases found
        cases same
        exact ⟨entries, [], rfl, List.not_mem_nil⟩
      · rw [if_neg same] at found
        obtain ⟨before, after, rfl, absent⟩ := ih.mp found
        exact ⟨before, after ++ [entry], by simp, by simp [absent, Ne.symm same]⟩
    · rintro ⟨before, after, split, absent⟩
      rcases List.eq_nil_or_concat after with rfl | ⟨others, final, rfl⟩
      · obtain ⟨_, only⟩ := List.append_inj' split rfl
        cases only
        exact if_pos rfl
      · rw [List.concat_eq_append, ← List.cons_append, ← List.append_assoc] at split
        obtain ⟨rfl, only⟩ := List.append_inj' split rfl
        cases only
        simp only [List.concat_eq_append, List.map_append, List.mem_append, not_or] at absent
        rw [if_neg fun same => absent.2 (List.mem_singleton.mpr same.symm)]
        exact ih.mpr ⟨before, others, rfl, absent.1⟩

/-! ### Where an entry stands -/

section Places

variable {name : Text} {value other : α} {before after table : Table α}

theorem find?_of_mem (distinct : table.names.Nodup) (listed : (name, value) ∈ table) :
    table.find? name = some value := by
  induction table with
  | nil => cases listed
  | cons entry rest ih =>
    obtain ⟨absent, others⟩ := List.nodup_cons.mp distinct
    rw [find?]
    rcases List.mem_cons.mp listed with rfl | later
    · exact if_pos rfl
    · have differs : entry.1 ≠ name := by
        rintro rfl
        exact absent (List.mem_map.mpr ⟨_, later, rfl⟩)
      rw [if_neg differs]
      exact ih others later

/-- An entry of a table without repeated names is the only one with its name. -/
theorem exists_place (distinct : table.names.Nodup) (listed : (name, value) ∈ table) :
    ∃ before after : Table α, table = before ++ (name, value) :: after ∧ name ∉ before.names ∧
      name ∉ after.names := by
  obtain ⟨before, after, rfl⟩ := List.append_of_mem listed
  rw [names, List.map_append, List.map_cons, List.nodup_append, List.nodup_cons] at distinct
  obtain ⟨_, ⟨behind, _⟩, apart⟩ := distinct
  exact ⟨before, after, rfl, fun inFront => apart _ inFront _ List.mem_cons_self rfl, behind⟩

/-- A value that is put under a name that is there takes the place of the value before. -/
theorem put_place (inFront : name ∉ before.names) :
    put name value (before ++ (name, other) :: after) = before ++ (name, value) :: after := by
  rw [put_append inFront, put, if_pos rfl]

theorem erase_of_not_mem (absent : name ∉ table.names) : erase name table = table := by
  induction table with
  | nil => rfl
  | cons entry rest ih =>
    rw [erase, if_neg (Ne.symm (List.ne_of_not_mem_cons absent)),
      ih (List.not_mem_of_not_mem_cons absent)]

theorem erase_place (inFront : name ∉ before.names) (behind : name ∉ after.names) :
    erase name (before ++ (name, value) :: after) = before ++ after := by
  induction before with
  | nil => rw [List.nil_append, erase, if_pos rfl, erase_of_not_mem behind, List.nil_append]
  | cons entry rest ih =>
    rw [List.cons_append, erase, if_neg (Ne.symm (List.ne_of_not_mem_cons inFront)),
      ih (List.not_mem_of_not_mem_cons inFront), List.cons_append]

end Places

end GuardedConsole.Table
