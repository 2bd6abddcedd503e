import Mathlib.Data.List.Destutter
import GuardedConsole.Proofs.Console.Restarting

/-!
# What a history lists

A history lists the texts that were added to it, each run of equal ones once, as far as its size goes
(`History.Lists`). Adding keeps this, though it looks at the newest entry only and drops the oldest
ones, since the newest entry is the last text that was added. What a run makes of a history is said by `history_lists_additions`.
-/

namespace GuardedConsole

namespace History

variable {h h' : History} {added more : List Text} {text : Text} {size : Int}

/-! ### Collapsing and cutting -/

theorem destutter'_concat (first text : Text) (rest : List Text) :
    (rest ++ [text]).destutter' (· ≠ ·) first =
      if (first :: rest).getLast? = some text then rest.destutter' (· ≠ ·) first
      else rest.destutter' (· ≠ ·) first ++ [text] := by
  induction rest generalizing first with
  | nil => by_cases same : first = text <;> simp [same]
  | cons second rest ih =>
    rw [List.cons_append, List.getLast?_cons_cons]
    by_cases same : first = second
    · subst same
      rw [List.destutter'_cons_neg _ (by simp), List.destutter'_cons_neg _ (by simp), ih]
    · rw [List.destutter'_cons_pos _ same, List.destutter'_cons_pos _ same, ih]
      split <;> rfl

/-- A text behind others is new in the collapsed list unless it equals the last of them. -/
theorem destutter_concat (added : List Text) (text : Text) :
    (added ++ [text]).destutter (· ≠ ·) =
      if added.getLast? = some text then added.destutter (· ≠ ·)
      else added.destutter (· ≠ ·) ++ [text] := by
  cases added with
  | nil => rfl
  | cons first rest => exact destutter'_concat first text rest

theorem getLast?_destutter (added : List Text) :
    (added.destutter (· ≠ ·)).getLast? = added.getLast? := by
  induction added using List.reverseRecOn with
  | nil => rfl
  | append_singleton added text ih =>
    rw [destutter_concat, List.getLast?_concat]
    split
    · rename_i last
      rw [ih, last]
    · exact List.getLast?_concat

theorem getLast?_rtake {n : Nat} (positive : 0 < n) (entries : List Text) :
    (entries.rtake n).getLast? = entries.getLast? := by
  obtain ⟨n, rfl⟩ : ∃ k, n = k + 1 := ⟨n - 1, by omega⟩
  rcases List.eq_nil_or_concat' entries with rfl | ⟨front, last, rfl⟩
  · rw [List.rtake_nil]
  · rw [List.rtake_concat_succ, List.getLast?_concat, List.getLast?_concat]

/-! ### Listing what was added -/

/-- The entries are the texts that were added, each run of equal ones once, cut to the newest ones. -/
structure Lists (h : History) (size : Int) (added : List Text) : Prop where
  sized : h.size = size
  entries : h.entries = (added.destutter (· ≠ ·)).rtake size.toNat

theorem lists_nil (empty : h.entries = []) : h.Lists h.size [] :=
  ⟨rfl, by rw [empty, List.destutter_nil, List.rtake_nil]⟩

/-- The newest entry is the last text that was added. -/
theorem Lists.getLast?_eq (lists : h.Lists size added) (positive : 1 ≤ size) :
    h.entries.getLast? = added.getLast? := by
  rw [lists.entries, getLast?_rtake (by omega), getLast?_destutter]

theorem Lists.add (lists : h.Lists size added) (positive : 1 ≤ size) (text : Text) :
    (h.add text).Lists size (added ++ [text.trim]) := by
  unfold History.add
  rw [lists.getLast?_eq positive]
  split
  · rename_i repeated
    refine ⟨lists.sized, ?_⟩
    rw [destutter_concat, if_pos repeated]
    exact lists.entries
  · rename_i other
    refine ⟨lists.sized, ?_⟩
    unfold ofEntries
    dsimp only
    rw [destutter_concat, if_neg other, lists.sized, kept_eq_rtake positive, lists.entries,
      rtake_concat_rtake]

theorem Lists.length_le (lists : h.Lists size added) : h.entries.length ≤ size.toNat := by
  rw [lists.entries]
  exact length_rtake_le _ _

theorem Lists.isChain (lists : h.Lists size added) : h.entries.IsChain (· ≠ ·) := by
  rw [lists.entries]
  exact (List.isChain_destutter _ added).suffix (List.drop_suffix _ _)

theorem Lists.of_moved (lists : h.Lists size added)
    (moved : h'.size = h.size ∧ h'.entries = h.entries) : h'.Lists size added :=
  ⟨moved.1.trans lists.sized, moved.2.trans lists.entries⟩

theorem Lists.turns (lists : h.Lists size added) (positive : 1 ≤ size) (turns : h.Turns more h') :
    h'.Lists size (added ++ more) := by
  cases turns with
  | same => rwa [List.append_nil]
  | add text => exact lists.add positive text
  | previous =>
    rw [List.append_nil]
    exact lists.of_moved h.moved_previous
  | next =>
    rw [List.append_nil]
    exact lists.of_moved h.moved_next

end History

namespace Console

variable {σ : Type} [Host σ] {c : Console σ} {settings : Settings} {i : Interpreter} {w : σ}
  {files : Files} {r : Reporter} {steps : List (Step σ)} {size : Int} {before : List Text}

theorem lists_run (positive : 1 ≤ size) (lists : c.history.Lists size before)
    (stays : ∀ s ∈ steps, s.Stays) :
    (c.run steps).history.Lists size (before ++ steps.flatMap Step.added) := by
  induction steps generalizing c before with
  | nil => rwa [List.flatMap_nil, List.append_nil]
  | cons s steps ih =>
    obtain ⟨first, others⟩ := List.forall_mem_cons.mp stays
    rw [List.flatMap_cons, ← List.append_assoc]
    exact ih (lists.turns positive (turns_step first)) others

/-- After any run of a console that begins without a history, the history is what was added in the run:
the texts without the blanks around them, each run of equal ones once, and of these the newest ones, as
many as the size. It is never longer than its size, no entry equals the one before it, and moving in it
or completing does not change it. -/
theorem history_lists_additions (positive : 1 ≤ settings.historySize)
    (started : start settings i w files r = .ok c) (empty : c.history.entries = [])
    (stays : ∀ s ∈ steps, s.Stays) :
    let d := c.run steps
    d.history.entries =
        ((steps.flatMap Step.added).destutter (· ≠ ·)).rtake settings.historySize.toNat ∧
      d.history.entries.length ≤ settings.historySize.toNat ∧
      d.history.entries.IsChain (· ≠ ·) ∧
      d.previous.2.history.entries = d.history.entries ∧
      d.next.2.history.entries = d.history.entries := by
  intro d
  have sized : c.history.size = settings.historySize := by
    obtain ⟨entries, history⟩ := history_start started
    rw [history]
    rfl
  have lists : d.history.Lists settings.historySize (steps.flatMap Step.added) := by
    have begun := History.lists_nil empty
    rw [sized] at begun
    exact lists_run positive begun stays
  exact ⟨lists.entries, lists.length_le, lists.isChain, d.history.moved_previous.2,
    d.history.moved_next.2⟩

/-- Four texts are added, one of them twice in a row, with a blank command and moves in between. -/
def greetings : List (Step World) :=
  [.add "hello".toText, .execute "  ".toText ownSource, .execute " hi".toText ownSource, .previous,
    .execute "hi\n".toText ownSource, .next, .complete "h".toText, .add "bye ".toText]

/-- A history of two entries keeps the last two of them. -/
theorem history_lists_greetings :
    let settings : Settings := { historySize := 2 }
    1 ≤ settings.historySize ∧ (∀ s ∈ greetings, s.Stays) ∧
      ∃ c, start settings emptyHanded early {} {} = .ok c ∧ c.history.entries = [] ∧
        (c.run greetings).history.entries = ["hi".toText, "bye".toText] := by
  intro settings
  have stays : ∀ s ∈ greetings, s.Stays := by
    simp [greetings, Step.Stays]
  have positive : 1 ≤ settings.historySize := by decide
  obtain ⟨listed, _⟩ := history_lists_additions positive rfl rfl stays
  refine ⟨positive, stays, _, rfl, rfl, ?_⟩
  rw [listed]
  decide

end Console

end GuardedConsole
