import GuardedConsole.Proofs.Console.Remembering

/-!
# Walking through a history

The cursor of a history stands at an entry or behind the newest one (`History.InRange`), whatever is
done with the console. There a move is a step of a walk that stops at both ends (`previous_eq`,
`next_eq`), and a number of moves in one direction reads off a stretch of the entries
(`repeated_previous`, `repeated_next`). `navigation_is_clamped_walk` puts this together.
-/

namespace GuardedConsole

namespace History

variable {h h' : History} {added : List Text} {text : Text}

/-- The cursor stands at an entry, or behind the newest one. -/
def InRange (h : History) : Prop :=
  h.cursor ≤ h.entries.length

/-- The history with the cursor at a place. -/
def movedTo (h : History) (place : Nat) : History :=
  { h with cursor := place }

theorem previous_eq (inRange : h.InRange) :
    h.previous = (h.entries[h.cursor - 1]?, h.movedTo (h.cursor - 1)) := by
  unfold InRange at inRange
  unfold previous
  split
  · -- the cursor is at the beginning, where it stays
    rename_i empty
    obtain ⟨entries, cursor, size⟩ := h
    obtain rfl : entries = [] := List.isEmpty_iff.mp empty
    obtain rfl : cursor = 0 := Nat.le_zero.mp inRange
    rfl
  · rfl

theorem next_eq (h : History) :
    h.next = ((h.entries[min h.entries.length (h.cursor + 1)]?).getD [],
      h.movedTo (min h.entries.length (h.cursor + 1))) := by
  unfold next
  split
  · rename_i last
    rw [Nat.min_eq_left last, List.getElem?_eq_none (Nat.le_refl _)]
    rfl
  · rename_i further
    rw [Nat.min_eq_right (by omega)]
    rfl

theorem inRange_of_cursor_eq (behind : h.cursor = h.entries.length) : h.InRange :=
  Nat.le_of_eq behind

theorem InRange.turns (inRange : h.InRange) (turns : h.Turns added h') : h'.InRange := by
  cases turns with
  | same => exact inRange
  | add text => exact inRange_of_cursor_eq (cursor_add h text)
  | previous =>
    rw [previous_eq inRange]
    unfold InRange movedTo at *
    dsimp only
    omega
  | next =>
    rw [next_eq]
    exact Nat.min_le_left _ _

end History

namespace Console

variable {σ : Type} {c : Console σ} {settings : Settings} {i : Interpreter} {w : σ} {files : Files}
  {r : Reporter} {s : Step σ} {place count p q : Nat}

theorem inRange_start (started : start settings i w files r = .ok c) : c.history.InRange := by
  obtain ⟨entries, history⟩ := history_start started
  rw [history]
  exact History.inRange_of_cursor_eq rfl

/-! ### Several moves -/

/-- The console with the cursor of its history at a place. -/
def movedTo (c : Console σ) (place : Nat) : Console σ :=
  { c with history := c.history.movedTo place }

/-- What a move answers each time if it is made a number of times, and the console after that. -/
def repeated {α : Type} (move : Console σ → α × Console σ) : Nat → Console σ → List α × Console σ
  | 0, c => ([], c)
  | count + 1, c =>
    let (answer, c) := move c
    let (answers, c) := repeated move count c
    (answer :: answers, c)

theorem previous_eq (inRange : c.history.InRange) :
    c.previous = (c.history.entries[c.history.cursor - 1]?, c.movedTo (c.history.cursor - 1)) := by
  unfold previous
  rw [History.previous_eq inRange]
  rfl

theorem next_eq (c : Console σ) :
    c.next = ((c.history.entries[min c.history.entries.length (c.history.cursor + 1)]?).getD [],
      c.movedTo (min c.history.entries.length (c.history.cursor + 1))) := by
  unfold next
  rw [History.next_eq]
  rfl

theorem repeated_succ {α : Type} {move : Console σ → α × Console σ} {answer : α} {c' : Console σ}
    (moved : move c = (answer, c')) (count : Nat) :
    repeated move (count + 1) c =
      (answer :: (repeated move count c').1, (repeated move count c').2) := by
  rw [repeated, moved]

/-- Going back from a place gives the entries before it, the nearest first. -/
theorem repeated_previous (inRange : place ≤ c.history.entries.length) (far : count ≤ place) :
    repeated previous count (c.movedTo place) =
      (((c.history.entries.take place).reverse.take count).map some, c.movedTo (place - count)) := by
  induction count generalizing place with
  | zero => rfl
  | succ count ih =>
    obtain ⟨place, rfl⟩ : ∃ k, place = k + 1 := ⟨place - 1, by omega⟩
    have here : c.history.entries[place]? = some c.history.entries[place] :=
      List.getElem?_eq_getElem (by omega)
    have moved : (c.movedTo (place + 1)).previous =
        (some c.history.entries[place], c.movedTo place) := by
      have inRange' : (c.movedTo (place + 1)).history.InRange := inRange
      rw [previous_eq inRange', ← here]
      rfl
    have nearest : (c.history.entries.take (place + 1)).reverse =
        c.history.entries[place] :: (c.history.entries.take place).reverse := by
      rw [List.take_add_one, here]
      simp
    rw [repeated_succ moved, ih (by omega) (by omega), nearest, Nat.add_sub_add_right]
    rfl

/-- Going on from a place gives the entries behind it, as long as there are any. -/
theorem repeated_next (near : place + count < c.history.entries.length) :
    repeated next count (c.movedTo place) =
      ((c.history.entries.drop (place + 1)).take count, c.movedTo (place + count)) := by
  induction count generalizing place with
  | zero => rfl
  | succ count ih =>
    have further : place + 1 < c.history.entries.length := by omega
    have moved : (c.movedTo place).next =
        (c.history.entries[place + 1], c.movedTo (place + 1)) := by
      rw [next_eq]
      show ((c.history.entries[min c.history.entries.length (place + 1)]?).getD [],
        c.movedTo (min c.history.entries.length (place + 1))) = _
      rw [Nat.min_eq_right (Nat.le_of_lt further), List.getElem?_eq_getElem further]
      rfl
    have later : place + 1 + count = place + (count + 1) := by omega
    rw [repeated_succ moved, ih (by omega), List.drop_eq_getElem_cons further, later]
    rfl

/-- Going back from behind the newest entry and then on again gives the newest entries, the newest
first, and then the ones after the oldest of them. -/
theorem repeated_both (behind : c.history.cursor = c.history.entries.length) (fewer : q < p)
    (enough : p ≤ c.history.entries.length) :
    (repeated previous p c).1 = (c.history.entries.reverse.take p).map some ∧
      (repeated next q (repeated previous p c).2).1 =
        (c.history.entries.drop (c.history.entries.length - p + 1)).take q := by
  have here : c = c.movedTo c.history.entries.length := by
    rw [← behind]
    rfl
  have near : c.history.entries.length - p + q < c.history.entries.length := by omega
  have back := repeated_previous (Nat.le_refl c.history.entries.length) enough
  have forth := repeated_next near
  rw [← here, List.take_length] at back
  rw [back, forth]
  exact ⟨rfl, rfl⟩

/-! ### Steps -/

variable [Host σ]

theorem inRange_step (inRange : c.history.InRange) (s : Step σ) : (c.step s).history.InRange := by
  cases s with
  | reopen interpreter world reporter =>
    unfold step
    dsimp only
    split
    · rename_i opened reopened
      exact inRange_start reopened
    · exact inRange
  | execute _ _ | add _ | previous | next | complete _ | pass _ =>
    exact inRange.turns (turns_step trivial)

theorem inRange_run (inRange : c.history.InRange) (steps : List (Step σ)) :
    (c.run steps).history.InRange :=
  run_invariant (P := fun c => c.history.InRange) inRange fun s _ _ kept => inRange_step kept s

theorem cursor_of_adds (adds : s.added ≠ []) :
    (c.step s).history.cursor = (c.step s).history.entries.length := by
  cases s with
  | execute text source =>
    have filled : text.trim ≠ [] := by
      intro blank
      exact adds (if_pos blank)
    unfold step
    dsimp only
    rw [history_execute filled]
    exact History.cursor_add _ _
  | add text => exact History.cursor_add _ _
  | previous | next | complete _ | pass _ | reopen _ _ _ => exact absurd rfl adds

/-- However a console was used and reopened, the cursor of its history stands at an entry or behind the
newest one. A move takes it one place back or on, but not past the two ends, and answers the entry at
the new place: going back answers nothing only if there are no entries, and going on answers a blank
text where there is no entry, which is behind the newest one (a text that was added can be blank too).
After a step that adds a text, going back and then on again reads off the newest entries. -/
theorem navigation_is_clamped_walk (started : start settings i w files r = .ok c)
    (steps : List (Step σ)) :
    let d := c.run steps
    let h := d.history
    let back := h.cursor - 1
    let forth := min h.entries.length (h.cursor + 1)
    h.cursor ≤ h.entries.length ∧
      (d.previous = (h.entries[back]?, d.movedTo back) ∧
        (h.entries[back]? = none ↔ h.entries = [])) ∧
      (d.next = ((h.entries[forth]?).getD [], d.movedTo forth) ∧
        (h.entries[forth]? = none ↔ forth = h.entries.length) ∧
        (d.next.1 = [] ↔ forth = h.entries.length ∨ h.entries[forth]? = some [])) ∧
      ∀ s, s.added ≠ [] → ∀ p q, q < p → p ≤ (d.step s).history.entries.length →
        let entries := (d.step s).history.entries
        let gone := repeated previous p (d.step s)
        gone.1 = (entries.reverse.take p).map some ∧
          (repeated next q gone.2).1 = (entries.drop (entries.length - p + 1)).take q := by
  intro d h back forth
  have inRange : h.InRange := inRange_run (inRange_start started) steps
  have beforeEnd : h.entries[back]? = none ↔ h.entries = [] := by
    unfold History.InRange at inRange
    rw [List.getElem?_eq_none_iff, ← List.length_eq_zero_iff]
    omega
  have atEnd : h.entries[forth]? = none ↔ forth = h.entries.length := by
    rw [List.getElem?_eq_none_iff]
    omega
  have blank : d.next.1 = [] ↔ forth = h.entries.length ∨ h.entries[forth]? = some [] := by
    rw [next_eq, ← atEnd]
    show (h.entries[forth]?).getD [] = [] ↔ _
    cases h.entries[forth]? <;> simp
  refine ⟨inRange, ⟨previous_eq inRange, beforeEnd⟩, ⟨next_eq d, atEnd, blank⟩, ?_⟩
  intro s adds p q fewer enough
  exact repeated_both (cursor_of_adds adds) fewer enough

/-- A blank text does not say that the cursor is behind the newest entry, since an entry can be blank. -/
theorem next_gives_blank_entry :
    ¬∀ (settings : Settings) i (w : World) files r c, 1 ≤ settings.historySize →
      start settings i w files r = .ok c → ∀ steps,
        let d := c.run steps
        d.next.1 = [] ↔ d.next.2.history.cursor = d.history.entries.length := by
  intro told
  have blank := told {} emptyHanded early {} {} _ (by decide) rfl
    [.add "a".toText, .add " ".toText, .previous, .previous]
  revert blank
  decide

/-- Three entries are kept when a console is reopened on two and two more are added: from the newest one
three places back, and two on again. -/
theorem navigation_among_farewells :
    let settings : Settings := { historySize := 3, keepsState := true }
    let files : Files := { state := some handwritten }
    let steps : List (Step World) :=
      [.add "hello".toText, .previous, .next, .reopen emptyHanded early {}, .previous,
        .add "bye".toText]
    let s : Step World := .add " ciao ".toText
    s.added ≠ [] ∧ ∃ c, start settings emptyHanded early files {} = .ok c ∧
      3 ≤ ((c.run steps).step s).history.entries.length ∧
      let gone := repeated previous 3 ((c.run steps).step s)
      gone.1 = [some "ciao".toText, some "bye".toText, some [.high 0x3d]] ∧
        (repeated next 2 gone.2).1 = ["bye".toText, "ciao".toText] := by
  intro settings files steps s
  let c := opened settings emptyHanded early files {} ["😀".toText, [.high 0x3d]]
  have started : start settings emptyHanded early files {} = .ok c := by
    rw [start_eq rfl rfl, read_handwritten]
    rfl
  have entries : ((c.run steps).step s).history.entries =
      [[.high 0x3d], "bye".toText, "ciao".toText] := by
    cbv
  have adds : s.added ≠ [] := List.cons_ne_nil _ _
  have enough : 3 ≤ ((c.run steps).step s).history.entries.length := by
    rw [entries]
    decide
  obtain ⟨-, -, -, walk⟩ := navigation_is_clamped_walk started steps
  obtain ⟨back, forth⟩ := walk s adds 3 2 (by decide) enough
  refine ⟨adds, c, started, enough, ?_, ?_⟩
  · rw [back, entries]
    rfl
  · rw [forth, entries]
    rfl

end Console

end GuardedConsole
