import GuardedConsole.Text.Basic

/-!
# Values under names

A table lists values under distinct names in the order in which the names came. Putting a value
under a name that is there keeps its place; `mem_put` says what the table holds afterwards,
`find_put` what is found, and `nodup_names_put` that no name comes twice.
-/

namespace GuardedConsole

abbrev Table (α : Type) := List (Text × α)

namespace Table

variable {α : Type}

def put (name : Text) (value : α) : Table α → Table α
  | [] => [(name, value)]
  | (n, v) :: rest => if n = name then (n, value) :: rest else (n, v) :: put name value rest

def find? (name : Text) : Table α → Option α
  | [] => none
  | (n, v) :: rest => if n = name then some v else find? name rest

def erase (name : Text) : Table α → Table α
  | [] => []
  | (n, v) :: rest => if n = name then erase name rest else (n, v) :: erase name rest

/-- The table of some entries; of those with the same name the last value counts. -/
def ofList (entries : List (Text × α)) : Table α :=
  entries.foldl (fun table (name, value) => put name value table) []

def names (table : Table α) : List Text :=
  table.map Prod.fst

def values (table : Table α) : List α :=
  table.map Prod.snd

theorem mem_put {name : Text} {value : α} {table : Table α} {entry : Text × α}
    (member : entry ∈ put name value table) : entry = (name, value) ∨ entry ∈ table := by
  induction table with
  | nil => exact .inl (List.mem_singleton.mp member)
  | cons first rest ih =>
    rw [put] at member
    split at member
    · rename_i same
      rcases List.mem_cons.mp member with rfl | later
      · exact .inl (by rw [same])
      · exact .inr (List.mem_cons_of_mem _ later)
    · rcases List.mem_cons.mp member with rfl | later
      · exact .inr List.mem_cons_self
      · exact (ih later).imp id (List.mem_cons_of_mem _)

theorem mem_names_put (name : Text) (value : α) (table : Table α) :
    name ∈ (put name value table).names := by
  induction table with
  | nil => exact List.mem_cons_self
  | cons entry rest ih =>
    rw [put]
    split
    · rename_i same
      exact List.mem_cons.mpr (.inl same.symm)
    · exact List.mem_cons_of_mem _ ih

theorem names_subset_put (name : Text) (value : α) (table : Table α) :
    table.names ⊆ (put name value table).names := by
  induction table with
  | nil => exact List.nil_subset _
  | cons entry rest ih =>
    rw [put]
    split
    · exact List.Subset.refl _
    · exact List.cons_subset_cons _ ih

/-- A new name goes behind those that are there. -/
theorem put_append {name : Text} {known : Table α} (new : name ∉ known.names) (value : α)
    (table : Table α) : put name value (known ++ table) = known ++ put name value table := by
  induction known with
  | nil => rfl
  | cons entry rest ih =>
    obtain ⟨n, v⟩ := entry
    rw [List.cons_append, put, if_neg (Ne.symm (List.ne_of_not_mem_cons new)),
      ih (List.not_mem_of_not_mem_cons new)]
    rfl

theorem put_of_not_mem {name : Text} {table : Table α} (new : name ∉ table.names) (value : α) :
    put name value table = table ++ [(name, value)] := by
  have behind := put_append new value []
  rwa [List.append_nil] at behind

theorem find_put (name other : Text) (value : α) (table : Table α) :
    find? other (put name value table) =
      if name = other then some value else find? other table := by
  induction table with
  | nil => rfl
  | cons entry rest ih =>
    obtain ⟨n, v⟩ := entry
    by_cases h : n = name
    · subst h
      by_cases ho : n = other <;> simp [put, find?, ho]
    · by_cases ho : n = other
      · have hno : name ≠ other := fun e => h (ho.trans e.symm)
        have hon : other ≠ name := Ne.symm hno
        simp [put, find?, ho, hno, hon]
      · simp [put, find?, h, ho, ih]

theorem mem_of_find? {name : Text} {value : α} {table : Table α}
    (found : find? name table = some value) : (name, value) ∈ table := by
  induction table with
  | nil => cases found
  | cons entry rest ih =>
    rw [find?] at found
    split at found
    · rename_i same
      cases found
      exact List.mem_cons.mpr (.inl (by rw [← same]))
    · exact List.mem_cons_of_mem _ (ih found)

theorem nodup_names_put {table : Table α} (name : Text) (value : α)
    (distinct : table.names.Nodup) : (put name value table).names.Nodup := by
  induction table with
  | nil => exact List.nodup_cons.mpr ⟨List.not_mem_nil, List.nodup_nil⟩
  | cons entry rest ih =>
    obtain ⟨n, v⟩ := entry
    obtain ⟨absent, others⟩ := List.nodup_cons.mp distinct
    rw [put]
    split
    · exact List.nodup_cons.mpr ⟨absent, others⟩
    · rename_i differs
      refine List.nodup_cons.mpr ⟨fun member => ?_, ih others⟩
      obtain ⟨other, inside, same⟩ := List.mem_map.mp member
      rcases mem_put inside with rfl | old
      · exact differs same.symm
      · exact absent (List.mem_map.mpr ⟨other, old, same⟩)

theorem erase_sublist (name : Text) (table : Table α) : (erase name table).Sublist table := by
  induction table with
  | nil => exact .refl []
  | cons entry rest ih =>
    rw [erase]
    split
    · exact ih.cons entry
    · exact ih.cons_cons entry

end Table

end GuardedConsole
