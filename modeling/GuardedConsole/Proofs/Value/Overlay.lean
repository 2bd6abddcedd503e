import GuardedConsole.Value.Dictionary

/-!
# Entries put over others

Entries that are put or merged into others change what is found under their own keys, and nothing
else. This is said of keys that are texts: a text is the same key as no other value.
-/

namespace GuardedConsole

theorem Value.sameKey_text_iff {v : Value} {t : Text} :
    v.sameKey (.text t) = true ↔ v = .text t := by
  cases v <;> simp [sameKey, integer?]

theorem Value.text_sameKey_iff {v : Value} {t : Text} :
    (Value.text t).sameKey v = true ↔ .text t = v := by
  cases v <;> simp [sameKey, integer?]

namespace Entries

variable {entries added : Entries} {key value : Value} {name : Text}

theorem find?_put_of_ne (other : key ≠ .text name) :
    find? (.text name) (put key value entries) = find? (.text name) entries := by
  induction entries with
  | nil => exact if_neg (mt Value.sameKey_text_iff.mp other)
  | cons entry rest ih =>
    obtain ⟨k, v⟩ := entry
    rw [put]
    split
    · rename_i same
      have differs : ¬k.sameKey (.text name) = true := by
        intro found
        rw [Value.sameKey_text_iff.mp found, Value.text_sameKey_iff] at same
        exact other same.symm
      rw [find?, find?, if_neg differs, if_neg differs]
    · rw [find?, find?, ih]

/-- A name that is not among the entries that are merged in is found as before. -/
theorem find?_merge_of_find?_none (absent : find? (.text name) added = none) :
    find? (.text name) (merge entries added) = find? (.text name) entries := by
  induction added generalizing entries with
  | nil => rfl
  | cons entry rest ih =>
    obtain ⟨k, v⟩ := entry
    have first : merge entries ((k, v) :: rest) = merge (put k v entries) rest := rfl
    rw [find?] at absent
    split at absent
    · cases absent
    · rename_i differs
      rw [first, ih absent, find?_put_of_ne (mt Value.sameKey_text_iff.mpr differs)]

end Entries

end GuardedConsole
