import GuardedConsole.Proofs.Literal.Objects
import GuardedConsole.Proofs.Value.Cleaning

/-!
# Cleaned objects

Every object is decoded to a dictionary that has been cleaned (`exists_sanitized_of_readObject`), so
cleaning it once more changes nothing. `cleaning_reaches_fixpoint` says this together with what
cleaning does to any dictionary.
-/

namespace GuardedConsole

open Value

namespace Literal

open Entries

variable {value : Text → Except Failure Value} {t : Text} {v : Value}

/-- An object is decoded to a dictionary that has been cleaned. -/
theorem exists_sanitized_of_readObject (read : readObject value t = .ok v) :
    ∃ entries, v = .dict (sanitizeEntries entries) := by
  unfold readObject at read
  split at read
  · rename_i members _
    cases read
    rw [Value.ofJson, sanitize]
    exact ⟨_, rfl⟩
  · split at read
    · rename_i loose
      cases read
      unfold readLoosely at loose
      split at loose
      · cases loose
        exact ⟨_, rfl⟩
      · cases loose
    · cases read

/-- Cleaning gives a dictionary in which, under every path of keys, there is what cleaning leaves of
the dictionary under that path, and nothing where a key of the path is not harmless. Cleaning it again
changes nothing, and cleaning changes nothing at all exactly if the dictionary was clean. An object
that is decoded is such a dictionary. -/
theorem cleaning_reaches_fixpoint (entries : Entries) :
    ∃ cleaned, (Value.dict entries).sanitize = .dict cleaned ∧
      (∀ path deep, At cleaned path deep ↔
        (∀ key ∈ path, key.IsHarmless) ∧
          ∃ before, At entries path before ∧ CleanedLevel before deep) ∧
      (Value.dict cleaned).sanitize = .dict cleaned ∧
      (cleaned = entries ↔ IsClean entries) ∧
      ∀ (now : Time.Moment) (raw : Text) (v : Value), raw.head? = some (.char '\x7b') →
        read now raw = .ok v → v.sanitize = v ∧ ∃ decoded, v = .dict decoded ∧ IsClean decoded := by
  have again (entries : Entries) : sanitizeEntries (sanitizeEntries entries) = sanitizeEntries entries :=
    sanitizeEntries_of_clean _ (isClean_sanitizeEntries entries)
  refine ⟨sanitizeEntries entries, rfl, ?_, congrArg _ (again entries), sanitizeEntries_eq_self_iff, ?_⟩
  · intro path deep
    simp only [cleanedLevel_iff]
    exact at_sanitizeEntries_iff
  · intro now raw v opened decoded
    cases raw with
    | nil => cases opened
    | cons c t =>
      cases opened
      rw [read, readNested, readWith_brace] at decoded
      obtain ⟨given, rfl⟩ := exists_sanitized_of_readObject decoded
      exact ⟨congrArg _ (again given), _, rfl, isClean_sanitizeEntries given⟩

/-- An object with brackets in a text, and with a key that is dropped. -/
def invitation : Text :=
  "\x7btitle: \"<b>plan</b>\", onclick: 1\x7d".toText

theorem cleaning_reaches_fixpoint_invitation :
    ∃ decoded : Entries, decoded = [(.text "title".toText, .text "bplan/b".toText)] ∧
      invitation.head? = some (.char '\x7b') ∧
      read ⟨0, none, by decide⟩ invitation = .ok (.dict decoded) ∧
      (Value.dict decoded).sanitize = .dict decoded := by
  have tried : asJson invitation =
      "\x7b\"title\": \"<b>plan</b>\", \"onclick\": 1\x7d".toText := rfl
  have accepted : Json.read (asJson invitation) =
      .ok (.record [("title".toText, .text "<b>plan</b>".toText), ("onclick".toText, .int 1)]) := by
    rw [tried]
    cbv
  have decoded := read_of_json ⟨0, none, by decide⟩ accepted
  obtain ⟨_, _, _, _, _, fixpoint⟩ := cleaning_reaches_fixpoint []
  exact ⟨_, rfl, rfl, decoded, (fixpoint _ invitation _ rfl decoded).1⟩

end Literal

end GuardedConsole
