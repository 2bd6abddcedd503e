import GuardedConsole.Text.Basic

/-!
# The history of commands

A history lists commands, oldest first, with a cursor that moves between the entries and the place
past the newest one. A command that equals the newest entry is not listed again.
-/

namespace GuardedConsole

/-- Commands, oldest first, a cursor into them, and the number of entries to keep. -/
structure History where
  entries : List Text := []
  cursor : Nat := 0
  size : Int := 100

namespace History

/-- What a size leaves of entries: the newest ones if it is positive, all of them if it is zero, and
all but the oldest ones if it is negative. -/
def kept (size : Int) (entries : List Text) : List Text :=
  if 0 < size then entries.drop (entries.length - size.toNat) else entries.drop size.natAbs

def ofEntries (size : Int) (entries : List Text) : History :=
  { entries := kept size entries, cursor := (kept size entries).length, size }

def add (h : History) (text : Text) : History :=
  if h.entries.getLast? = some text.trim then { h with cursor := h.entries.length }
  else .ofEntries h.size (h.entries ++ [text.trim])

/-- Moves the cursor one entry back. The entry there, if there is any. -/
def previous (h : History) : Option Text × History :=
  if h.entries.isEmpty then (none, h)
  else
    let h := { h with cursor := h.cursor - 1 }
    (h.entries[h.cursor]?, h)

/-- Moves the cursor one entry forward. The entry there; past the newest entry, nothing. -/
def next (h : History) : Text × History :=
  if h.entries.length ≤ h.cursor + 1 then ([], { h with cursor := h.entries.length })
  else
    let h := { h with cursor := h.cursor + 1 }
    ((h.entries[h.cursor]?).getD [], h)

theorem cursor_add (h : History) (text : Text) :
    (h.add text).cursor = (h.add text).entries.length := by
  unfold add
  split <;> rfl

end History

end GuardedConsole
