import Mathlib.Data.List.DropRight
import GuardedConsole.Text.Basic

/-!
# Trimming

Trimming takes characters of a class off both ends: `trim_split` gives the parts of a text, and
`trim_eq_self` says which texts stay as they are.
-/

namespace GuardedConsole.Text

variable {p : CodePoint → Bool} {t : Text}

theorem dropEndWhile_split (p : CodePoint → Bool) (t : Text) :
    ∃ after, t = dropEndWhile p t ++ after ∧ ∀ c ∈ after, p c :=
  ⟨t.rtakeWhile p, (List.rdropWhile_append_rtakeWhile (p := p) (l := t)).symm,
    fun _ member => List.mem_rtakeWhile_imp member⟩

theorem trimWhile_split (p : CodePoint → Bool) (t : Text) :
    ∃ before after, t = before ++ trimWhile p t ++ after ∧ (∀ c ∈ before, p c) ∧
      ∀ c ∈ after, p c := by
  obtain ⟨after, split, trailing⟩ := dropEndWhile_split p (t.dropWhile p)
  refine ⟨t.takeWhile p, after, ?_, fun c member => List.mem_takeWhile_imp member, trailing⟩
  calc t = t.takeWhile p ++ t.dropWhile p := List.takeWhile_append_dropWhile.symm
    _ = t.takeWhile p ++ (trimWhile p t ++ after) := congrArg _ split
    _ = t.takeWhile p ++ trimWhile p t ++ after := (List.append_assoc ..).symm

theorem trim_split (t : Text) :
    ∃ before after, t = before ++ t.trim ++ after ∧ (∀ c ∈ before, isBlank c) ∧
      ∀ c ∈ after, isBlank c :=
  trimWhile_split isBlank t

theorem trim_cons_of_blank {c : CodePoint} (blank : isBlank c = true) : trim (c :: t) = trim t := by
  rw [trim, trimWhile, List.dropWhile_cons_of_pos blank]
  rfl

theorem trim_append_of_blank {before : Text} (blank : ∀ c ∈ before, isBlank c = true) (t : Text) :
    trim (before ++ t) = trim t := by
  rw [trim, trimWhile, List.dropWhile_append_of_pos blank]
  rfl

/-- What stands around a text is taken off, if the text itself neither begins nor ends with it. -/
theorem trimWhile_surrounded {before after : Text} (opening : ∀ c ∈ before, p c = true)
    (closing : ∀ c ∈ after, p c = true) (first : ∀ c, t.head? = some c → p c = false)
    (last : ∀ c, t.getLast? = some c → p c = false) : trimWhile p (before ++ (t ++ after)) = t := by
  rw [trimWhile, List.dropWhile_append_of_pos opening]
  cases t with
  | nil =>
    rw [List.nil_append, List.dropWhile_eq_nil_iff.mpr closing]
    rfl
  | cons c t =>
    have kept : (c :: t ++ after).dropWhile p = c :: t ++ after :=
      List.dropWhile_cons_of_neg (by rw [first c rfl]; decide)
    have ends : (c :: t).rdropWhile p = c :: t := by
      refine List.rdropWhile_eq_self_iff.mpr fun nonempty => ?_
      rw [last _ (List.getLast?_eq_some_getLast nonempty)]
      decide
    rw [kept, dropEndWhile, List.reverse_append, List.dropWhile_append_of_pos (by simpa using closing)]
    exact ends

theorem trimWhile_eq_self (first : ∀ c, t.head? = some c → p c = false)
    (last : ∀ c, t.getLast? = some c → p c = false) : trimWhile p t = t := by
  have bare := trimWhile_surrounded (List.forall_mem_nil _) (List.forall_mem_nil _) first last
  rwa [List.append_nil, List.nil_append] at bare

theorem trim_eq_self (first : ∀ c, t.head? = some c → isBlank c = false)
    (last : ∀ c, t.getLast? = some c → isBlank c = false) : trim t = t :=
  trimWhile_eq_self first last

theorem not_blank_of_trim {c : CodePoint} (last : t.trim.getLast? = some c) : isBlank c = false := by
  have filled : t.trim ≠ [] := by
    intro empty
    rw [empty] at last
    cases last
  have kept := List.rdropWhile_last_not isBlank (t.dropWhile isBlank) filled
  rw [List.getLast?_eq_some_getLast filled, Option.some.injEq] at last
  subst last
  exact Bool.eq_false_iff.mpr kept

theorem not_blank_of_trim_head {c : CodePoint} (first : t.trim.head? = some c) : isBlank c = false := by
  obtain ⟨after, whole, _⟩ := dropEndWhile_split isBlank (t.dropWhile isBlank)
  have kept : (t.dropWhile isBlank).head? = some c := by
    rw [whole, List.head?_append]
    change (t.trim.head?).or _ = _
    rw [first]
    rfl
  have stopped := List.head?_dropWhile_not isBlank t
  rw [kept] at stopped
  exact stopped

theorem trim_trim (t : Text) : t.trim.trim = t.trim :=
  trim_eq_self (fun _ => not_blank_of_trim_head) fun _ => not_blank_of_trim

end GuardedConsole.Text
