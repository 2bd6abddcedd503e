import GuardedConsole.Console.History
import GuardedConsole.Proofs.Report.Recording

/-!
# Turns of a history

What is done with a history of commands is a turn (`Turns`): a text is added to it, or its cursor moves,
which leaves the entries as they are. No turn makes a history longer than its size, if that is positive
(`Short.turns`), since adding drops all but the newest entries.
-/

namespace GuardedConsole.History

variable {h h' : History} {added entries : List Text} {text : Text} {size : Int}

/-! ### Sizes -/

theorem kept_eq_rtake (positive : 1 ≤ size) (entries : List Text) :
    kept size entries = entries.rtake size.toNat := by
  rw [kept, if_pos (by omega)]
  rfl

theorem kept_of_short (positive : 1 ≤ size) (short : entries.length ≤ size.toNat) :
    kept size entries = entries := by
  rw [kept_eq_rtake positive, List.rtake, Nat.sub_eq_zero_of_le short, List.drop_zero]

/-- The history has a size and keeps to it. -/
structure Short (h : History) (size : Int) : Prop where
  sized : h.size = size
  short : h.entries.length ≤ size.toNat

theorem short_ofEntries (positive : 1 ≤ size) (entries : List Text) :
    (ofEntries size entries).Short size where
  sized := rfl
  short := by
    show (kept size entries).length ≤ size.toNat
    rw [kept_eq_rtake positive]
    exact length_rtake_le _ _

/-! ### Turns -/

/-- What a step can make of a history, with the texts that it adds. -/
inductive Turns (h : History) : List Text → History → Prop where
  | same : Turns h [] h
  | add (text : Text) : Turns h [text.trim] (h.add text)
  | previous : Turns h [] h.previous.2
  | next : Turns h [] h.next.2

/-- Moving the cursor changes neither the size nor the entries. -/
theorem moved_previous (h : History) :
    h.previous.2.size = h.size ∧ h.previous.2.entries = h.entries := by
  unfold previous
  split <;> exact ⟨rfl, rfl⟩

theorem moved_next (h : History) : h.next.2.size = h.size ∧ h.next.2.entries = h.entries := by
  unfold next
  split <;> exact ⟨rfl, rfl⟩

theorem Short.of_moved (short : h.Short size)
    (moved : h'.size = h.size ∧ h'.entries = h.entries) : h'.Short size where
  sized := moved.1.trans short.sized
  short := by
    rw [moved.2]
    exact short.short

theorem Short.add (short : h.Short size) (positive : 1 ≤ size) (text : Text) :
    (h.add text).Short size := by
  unfold History.add
  split
  · exact ⟨short.sized, short.short⟩
  · rw [short.sized]
    exact short_ofEntries positive _

theorem Short.turns (short : h.Short size) (positive : 1 ≤ size) (turns : h.Turns added h') :
    h'.Short size := by
  cases turns with
  | same => exact short
  | add text => exact short.add positive text
  | previous => exact short.of_moved h.moved_previous
  | next => exact short.of_moved h.moved_next

end GuardedConsole.History
