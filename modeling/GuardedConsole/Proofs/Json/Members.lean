import GuardedConsole.Proofs.Json.Quotes

/-!
# Members of a record

A member whose value is read as a document wherever reading goes on behind it is put under its name,
and the reading of the record ends or goes on behind it: `readMembers_member`.
-/

namespace GuardedConsole.Json

variable {name t rest value : Text} {j : Json} {known all members : Table Json}

/-- A record goes on behind the text of a value: with its end or with the next member. -/
def GoesOn (t : Text) : Prop :=
  ∃ after, skipSpace t = .char '\x7d' :: after ∨ skipSpace t = .char ',' :: after

/-- If reading goes on behind the value, it is read as the document and leaves the rest. -/
def ReadsAs (value : Text) (j : Json) (rest : Text) : Prop :=
  ∀ fuel j' rest', readValue fuel (skipSpace value) = .ok (j', rest') → GoesOn rest' →
    j' = j ∧ rest' = rest

theorem readMembers_member {fuel : Nat} (noQuote : .char '"' ∉ name) (noBackslash : .char '\\' ∉ name)
    (reads : ReadsAs value j t)
    (read : readMembers fuel known (.char '"' :: (name ++ .char '"' :: .char ':' :: value)) =
      .ok (all, rest)) :
    ∃ fuel', (∀ after, skipSpace t = .char '\x7d' :: after → all = Table.put name j known) ∧
      ∀ after, skipSpace t = .char ',' :: after →
        readMembers fuel' (Table.put name j known) (skipSpace after) = .ok (all, rest) := by
  cases fuel with
  | zero => cases read
  | succ fuel =>
    refine ⟨fuel, ?_⟩
    rw [readMembers] at read
    split at read
    · cases read
    · rename_i string
      obtain ⟨rfl, rfl⟩ := readString_append noQuote noBackslash string
      split at read
      · rename_i colon
        cases colon
        split at read
        · cases read
        · rename_i v after found
          dsimp only at read
          -- what is behind the value decides whether the value is the document
          split at read
          · rename_i rest' ended
            obtain ⟨rfl, rfl⟩ := reads fuel v after found ⟨_, .inl ended⟩
            cases read
            refine ⟨fun _ _ => rfl, fun _ next => ?_⟩
            rw [ended] at next
            cases next
          · rename_i rest' next
            obtain ⟨rfl, rfl⟩ := reads fuel v after found ⟨_, .inr next⟩
            refine ⟨fun _ ended => ?_, fun after' next' => ?_⟩
            · rw [next] at ended
              cases ended
            · rw [next] at next'
              cases next'
              exact read
          · cases read
      · cases read

/-- A record that is not empty is read from its members. -/
theorem readMembers_of_read {t : Text}
    (read : Json.read (.char '\x7b' :: .char '"' :: t) = .ok j) :
    ∃ fuel members rest, j = .record members ∧
      readMembers fuel [] (.char '"' :: t) = .ok (members, rest) := by
  have brace (u : Text) : skipSpace (.char '\x7b' :: u) = .char '\x7b' :: u := rfl
  have quote (u : Text) : skipSpace (.char '"' :: u) = .char '"' :: u := rfl
  unfold Json.read at read
  split at read
  · cases read
  · rename_i found
    split at read
    · cases read
      rw [brace, readValue, quote] at found
      split at found
      · rename_i ended
        cases ended
      · split at found
        · rename_i all
          cases found
          exact ⟨_, _, _, rfl, all⟩
        · cases found
    · cases read

end GuardedConsole.Json
