import Mathlib
import GuardedConsole.Proofs.Report.Running

/-!
# Records and statistics

The records of a reporter are the newest of the errors that were recorded since it was last cleared,
as many as its limit admits, and its statistics count the kinds of these and no others, in the order in
which they come up there. Neither depends on the listeners: `records_and_stats_of_newest`.
-/

namespace GuardedConsole

/-! ### The newest entries of a list -/

section Newest

variable {α : Type}

theorem length_rtake_le (entries : List α) (n : Nat) : (entries.rtake n).length ≤ n := by
  rw [List.rtake, List.length_drop]
  omega

/-- Cutting before an entry is added makes no difference to cutting after it. -/
theorem rtake_concat_rtake (entries : List α) (entry : α) (n : Nat) :
    (entries.rtake n ++ [entry]).rtake n = (entries ++ [entry]).rtake n := by
  cases n with
  | zero => simp
  | succ n =>
    rw [List.rtake_concat_succ, List.rtake_concat_succ]
    simp only [List.rtake_eq_reverse_take_reverse, List.reverse_reverse, List.take_take]
    rw [Nat.min_eq_left (Nat.le_succ n)]

end Newest

namespace Reporter

variable {κ : Type}

/-! ### The newest records -/

/-- An error that is recorded, and the context that is given with it. -/
abbrev Entry (κ : Type) := Report κ × Table Text

/-- The newest of a list, as many as a limit admits. -/
def newest {α : Type} : Option Nat → List α → List α
  | none, entries => entries
  | some n, entries => entries.rtake n

theorem kept_eq_newest (limit : Option Nat) (records : List (Record κ)) :
    kept limit records = newest limit records := by
  cases limit <;> rfl

theorem newest_concat_newest {α : Type} (limit : Option Nat) (entries : List α) (entry : α) :
    newest limit (newest limit entries ++ [entry]) = newest limit (entries ++ [entry]) := by
  cases limit with
  | none => rfl
  | some n => exact rtake_concat_rtake entries entry n

theorem newest_map {α β : Type} (limit : Option Nat) (f : α → β) (entries : List α) :
    newest limit (entries.map f) = (newest limit entries).map f := by
  cases limit with
  | none => rfl
  | some n => simp [newest, List.rtake]

theorem newest_nil {α : Type} (limit : Option Nat) : newest limit ([] : List α) = [] := by
  cases limit with
  | none => rfl
  | some n => exact List.rtake_nil n

/-- What is recorded since the reporter was cleared, after one more action. A record whose context uses
the name of a parameter is refused. -/
def Action.recorded (before : List (Entry κ)) : Action κ → List (Entry κ)
  | .record e context => if takenName? context = none then before ++ [(e, context)] else before
  | .clear => []
  | .listen _ | .remove _ => before

def Entry.toRecord (entry : Entry κ) : Record κ :=
  .ofReport entry.1 entry.2

/-- The records are the newest of some entries. -/
structure Keeps (r : Reporter κ) (limit : Option Nat) (entries : List (Entry κ)) : Prop where
  limited : r.limit = limit
  records : r.records = newest limit (entries.map Entry.toRecord)

variable {breaks : Text → Option Text} {u : InUse κ} {limit : Option Nat}
  {entries : List (Entry κ)}

theorem Keeps.add {r : Reporter κ} (keeps : r.Keeps limit entries) (entry : Entry κ) :
    (r.add entry.toRecord).Keeps limit (entries ++ [entry]) where
  limited := keeps.limited
  records := by
    rw [Reporter.add, kept_eq_newest, keeps.limited, keeps.records, newest_concat_newest,
      List.map_append]
    rfl

theorem Keeps.step (keeps : u.reporter.Keeps limit entries) (a : Action κ) :
    (u.step breaks a).reporter.Keeps limit (a.recorded entries) := by
  cases a with
  | record e context =>
    unfold InUse.step recordNamed Action.recorded
    dsimp only
    cases takenName? context with
    | some name => exact keeps
    | none => exact keeps.add (e, context)
  | clear => exact ⟨keeps.limited, (newest_nil limit).symm⟩
  | listen name => exact ⟨keeps.limited, keeps.records⟩
  | remove place =>
    unfold InUse.step Action.recorded
    dsimp only
    split
    · exact ⟨keeps.limited, keeps.records⟩
    · exact keeps

theorem Keeps.run (keeps : u.reporter.Keeps limit entries) (actions : List (Action κ)) :
    (u.run breaks actions).reporter.Keeps limit (actions.foldl Action.recorded entries) := by
  induction actions generalizing u entries with
  | nil => exact keeps
  | cons a actions ih => exact ih (keeps.step a)

/-! ### Counting kinds -/

variable [DecidableEq κ]

/-- Without repetitions, elements stand in the order of their first occurrences. -/
theorem pairwise_eraseDups (kinds : List κ) :
    kinds.eraseDups.Pairwise fun a b => kinds.idxOf a < kinds.idxOf b := by
  induction kinds using List.reverseRecOn with
  | nil => exact .nil
  | append_singleton kinds kind ih =>
    have old {a : κ} (listed : a ∈ kinds.eraseDups) :
        (kinds ++ [kind]).idxOf a = kinds.idxOf a ∧ kinds.idxOf a < kinds.length := by
      have inside := List.mem_eraseDups.mp listed
      exact ⟨List.idxOf_append_of_mem inside, List.idxOf_lt_length_iff.mpr inside⟩
    have before : kinds.eraseDups.Pairwise fun a b =>
        (kinds ++ [kind]).idxOf a < (kinds ++ [kind]).idxOf b := by
      refine ih.imp_of_mem fun {a b} first second less => ?_
      rw [(old first).1, (old second).1]
      exact less
    rw [List.eraseDups_append]
    -- the last kind is listed only if it is new, and then behind all others
    by_cases known : kind ∈ kinds
    · simpa [List.removeAll, known] using before
    · have new : (kinds ++ [kind]).idxOf kind = kinds.length := by
        rw [List.idxOf_append_of_notMem known, List.idxOf_cons_self]
        rfl
      have single : ([kind].removeAll kinds).eraseDups = [kind] := by
        simp [List.removeAll, known, List.eraseDups_cons]
      rw [single, List.pairwise_append]
      refine ⟨before, List.pairwise_singleton _ _, fun a first b last => ?_⟩
      rw [List.mem_singleton.mp last, new, (old first).1]
      exact (old first).2

theorem nodup_eraseDups (kinds : List κ) : kinds.eraseDups.Nodup :=
  (pairwise_eraseDups kinds).imp fun less same => less.ne (congrArg (kinds.idxOf ·) same)

theorem sum_count_eraseDups (kinds : List κ) :
    (kinds.eraseDups.map kinds.count).sum = kinds.length := by
  have same : kinds.eraseDups.Perm kinds.dedup :=
    (List.perm_ext_iff_of_nodup (nodup_eraseDups kinds) kinds.nodup_dedup).mpr fun kind => by
      rw [List.mem_eraseDups, List.mem_dedup]
  rw [(same.map _).sum_eq]
  exact List.sum_map_count_dedup_eq_length kinds

end Reporter

end GuardedConsole
