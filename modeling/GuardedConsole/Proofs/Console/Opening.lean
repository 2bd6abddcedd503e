import GuardedConsole.Console.Basic
import GuardedConsole.Proofs.Console.History
import GuardedConsole.Proofs.Json.Overlong

/-!
# Opening a state file

A console starts on any state file but one in which reading comes to an integer with too many digits.
Its history is the texts of the list under `history`, the newest ones as far as the size admits them,
and empty if the file is no record with such a list: `start_opens_unless_overlong`.
-/

namespace GuardedConsole

open Json

namespace StateFile

variable {content : Text} {items : List Json} {f : Failure}

/-- The content is a JSON record that has the list under `history`. -/
def HasHistory (content : Text) (items : List Json) : Prop :=
  ∃ members, Stands content (.record members) ∧
    Table.find? "history".toText members = some (.list items)

def overlong (n : Nat) : Failure :=
  .fault .badValue (Number.tooManyDigits n)

theorem read_of_hasHistory (has : HasHistory content items) :
    StateFile.read content = .ok (texts items) := by
  obtain ⟨members, stands, found⟩ := has
  rw [StateFile.read, read_eq_ok_iff.mpr stands]
  simp only [entriesOf, found]

theorem entriesOf_eq_nil {j : Json} (stands : Stands content j)
    (none : ∀ items, ¬HasHistory content items) : entriesOf j = [] := by
  unfold entriesOf
  split
  · rename_i members
    split
    · rename_i items found
      exact (none items ⟨members, stands, found⟩).elim
    · rfl
  · rfl

/-- Every content of a file has a history, or comes to an overlong integer, or else has no entries. -/
theorem read_of_not_hasHistory (none : ∀ items, ¬HasHistory content items)
    (short : ∀ n, ¬Meets .value content n) : StateFile.read content = .ok [] := by
  unfold StateFile.read
  split
  · rename_i document read
    rw [entriesOf_eq_nil (read_eq_ok_iff.mp read) none]
  · rfl
  · rename_i count read
    exact (short count (read_eq_tooManyDigits_iff.mp read)).elim

theorem read_eq_error_iff :
    StateFile.read content = .error f ↔ ∃ n, Meets .value content n ∧ f = overlong n := by
  constructor
  · intro failed
    unfold StateFile.read at failed
    split at failed
    · cases failed
    · cases failed
    · rename_i count read
      cases failed
      exact ⟨count, read_eq_tooManyDigits_iff.mp read, rfl⟩
  · rintro ⟨n, meets, rfl⟩
    rw [StateFile.read, read_eq_tooManyDigits_iff.mpr meets]
    rfl

end StateFile

namespace Console

open StateFile

variable {σ : Type} {settings : Settings} {i : Interpreter} {w : σ} {files : Files} {r : Reporter}
  {content : Text}

/-- The console with the entries, its cursor past the newest of them. -/
def opened (settings : Settings) (i : Interpreter) (w : σ) (files : Files) (r : Reporter)
    (entries : List Text) : Console σ :=
  { settings, interpreter := i, world := w, files, reporter := r
    history := .ofEntries settings.historySize entries }

theorem start_eq (keeps : settings.keepsState = true) (found : files.state = some content) :
    start settings i w files r = (StateFile.read content).map (opened settings i w files r) := by
  rw [start, keeps, if_pos rfl, found, StateFile.load]
  cases StateFile.read content <;> rfl

/-- Starting a console fails only on a state file that comes to an integer with too many digits, and
then with that as the failure. On any other it succeeds, and the history is the newest texts of the
list under `history`, as many as its size; it is empty if the file is no record with such a list. The
cursor is past the newest entry. -/
theorem start_opens_unless_overlong (settings : Settings) (i : Interpreter) (w : σ)
    (files : Files) (r : Reporter) (content : Text) (positive : 1 ≤ settings.historySize)
    (keeps : settings.keepsState = true) (found : files.state = some content) :
    (∀ f, start settings i w files r = .error f ↔
        ∃ n, Meets .value content n ∧ f = overlong n) ∧
      (∀ items, HasHistory content items → ∃ c, start settings i w files r = .ok c ∧
        c.history.entries = (texts items).rtake settings.historySize.toNat ∧
        c.history.cursor = c.history.entries.length) ∧
      ((∀ items, ¬HasHistory content items) → (∀ n, ¬Meets .value content n) →
        ∃ c, start settings i w files r = .ok c ∧ c.history.entries = [] ∧
          c.history.cursor = 0) := by
  rw [start_eq keeps found]
  refine ⟨fun f => ?_, fun items has => ?_, fun none short => ?_⟩
  · rw [← read_eq_error_iff]
    cases StateFile.read content <;> simp [Except.map]
  · rw [read_of_hasHistory has]
    exact ⟨_, rfl, History.kept_eq_rtake positive _, rfl⟩
  · rw [read_of_not_hasHistory none short]
    have empty : History.kept settings.historySize [] = [] := by
      rw [History.kept_eq_rtake positive, List.rtake_nil]
    exact ⟨_, rfl, empty, congrArg List.length empty⟩

/-- A file with three items under `history`, of which one is no text. -/
def threeItems : Text :=
  "\x7b\"history\": [\"a\", 1, \"b\"], \"saved\": null\x7d".toText

theorem read_threeItems :
    Json.read threeItems = .ok (.record
      [("history".toText, .list [.text "a".toText, .int 1, .text "b".toText]),
        ("saved".toText, .null)]) := by
  cbv

theorem start_opens_three_items :
    let settings : Settings := { historySize := 1, keepsState := true }
    let files : Files := { state := some threeItems }
    1 ≤ settings.historySize ∧ settings.keepsState = true ∧ files.state = some threeItems ∧
      ∃ c, start settings { context := [] } (World.fresh ⟨0, none, by decide⟩) files {} = .ok c ∧
        c.history.entries = ["b".toText] ∧ c.history.cursor = 1 := by
  intro settings files
  have has : HasHistory threeItems [.text "a".toText, .int 1, .text "b".toText] :=
    ⟨_, read_eq_ok_iff.mp read_threeItems, by cbv⟩
  obtain ⟨c, started, entries, cursor⟩ := (start_opens_unless_overlong settings { context := [] }
    (World.fresh ⟨0, none, by decide⟩) files {} threeItems (by decide) rfl rfl).2.1 _ has
  have newest : c.history.entries = ["b".toText] := entries
  exact ⟨by decide, rfl, rfl, c, started, newest, by rw [cursor, newest, List.length_singleton]⟩

/-- One digit more than are read. -/
def longInteger : Text :=
  List.replicate (Number.maxIntegerDigits + 1) (.char '1')

theorem isWholeNumber_ones (n : Nat) : IsWholeNumber (List.replicate (n + 1) (.char '1')) where
  filled := List.cons_ne_nil _ _
  all c member := by
    rw [List.eq_of_mem_replicate member]
    decide
  leading := .inr (by rw [List.replicate_succ, List.head?_cons]; decide)

theorem meets_longInteger : Meets .value longInteger longInteger.length := by
  have many : Number.maxIntegerDigits < longInteger.length := by
    rw [longInteger, List.length_replicate]
    exact Nat.lt_succ_self _
  have begins := @BeginsOverlong.intro false longInteger [] (isWholeNumber_ones _) many endsInteger_nil
  rw [List.append_nil] at begins
  exact .integer begins

/-- Not every state file can be opened. -/
theorem start_fails_on_longInteger :
    ¬∀ settings i (w : World) files r content, 1 ≤ settings.historySize → settings.keepsState = true →
      files.state = some content → ∃ c, start settings i w files r = .ok c := by
  intro opens
  let files : Files := { state := some longInteger }
  have found : files.state = some longInteger := rfl
  obtain ⟨c, started⟩ := opens { keepsState := true } { context := [] }
    (World.fresh ⟨0, none, by decide⟩) files {} longInteger (by decide) rfl found
  have failed : StateFile.read longInteger = .error (overlong longInteger.length) :=
    read_eq_error_iff.mpr ⟨_, meets_longInteger, rfl⟩
  rw [start_eq rfl found, failed] at started
  cases started

end Console

end GuardedConsole
