import GuardedConsole.Proofs.Argument.Outside

/-!
# Cutting at commas

`CutsAtTop` says which pieces a text is cut into: joined with commas they are the text, and the commas
between them are those outside quoted texts and brackets. `split_cuts_at_top` shows that splitting
gives these pieces trimmed, without a blank last one, each of which splits into itself alone.
`split_joinWith_iff` says which lists of arguments are given back when they are joined and split.
-/

namespace GuardedConsole.Argument

open Scan Text

variable {s : Scan} {c : CodePoint} {t u before after : Text} {ps parts left right args : List Text}

/-- The parts are the text cut at its commas outside quoted texts and brackets, and nowhere else. -/
structure CutsAtTop (t : Text) (parts : List Text) : Prop where
  joined : joinWith [.char ','] parts = t
  cut_iff : ∀ before after, t = before ++ .char ',' :: after →
    (Outside 0 before ↔ ∃ left right, parts = left ++ right ∧ left ≠ [] ∧ right ≠ [] ∧
      joinWith [.char ','] left = before ∧ joinWith [.char ','] right = after)

/-! ### Pieces and the commas between them -/

theorem joinWith_cons_of_ne_nil (p : Text) (filled : ps ≠ []) :
    joinWith [.char ','] (p :: ps) = p ++ .char ',' :: joinWith [.char ','] ps := by
  obtain ⟨next, ps, rfl⟩ := List.exists_cons_of_ne_nil filled
  simp [joinWith_cons_cons]

theorem joinWith_cons_head (c : CodePoint) (p : Text) (ps : List Text) :
    joinWith [.char ','] ((c :: p) :: ps) = c :: joinWith [.char ','] (p :: ps) := by
  cases ps <;> rfl

theorem joinWith_pieces (s : Scan) (t : Text) : joinWith [.char ','] (pieces s t) = t := by
  induction t generalizing s with
  | nil => rfl
  | cons c t ih =>
    have later := ih (s.step c)
    cases separates : s.separates c
    · rw [pieces_cons_of_not_separates separates]
      obtain ⟨p, ps, found⟩ := List.exists_cons_of_ne_nil (pieces_ne_nil (s.step c) t)
      rw [found] at later ⊢
      rw [List.modifyHead_cons, joinWith_cons_head, later]
    · obtain ⟨rfl, _⟩ := separates_iff.mp separates
      rw [pieces_cons_of_separates separates, joinWith_cons_of_ne_nil [] (pieces_ne_nil _ _), later]
      rfl

/-- A comma at top level stands between pieces. -/
theorem pieces_of_atTop (top : (s.run before).AtTop) :
    pieces s (before ++ .char ',' :: after) =
      pieces s before ++ pieces ((s.run before).step (.char ',')) after := by
  induction before generalizing s with
  | nil =>
    rw [run_nil] at top ⊢
    rw [List.nil_append, pieces_cons_of_separates (separates_iff.mpr ⟨rfl, top⟩)]
    rfl
  | cons c before ih =>
    rw [run_cons] at top ⊢
    rw [List.cons_append]
    cases separates : s.separates c
    · rw [pieces_cons_of_not_separates separates, pieces_cons_of_not_separates separates, ih top]
      obtain ⟨p, ps, found⟩ := List.exists_cons_of_ne_nil (pieces_ne_nil (s.step c) before)
      rw [found]
      rfl
    · rw [pieces_cons_of_separates separates, pieces_cons_of_separates separates, ih top]
      rfl

/-- Between pieces the scan is at top level. -/
theorem atTop_of_pieces (cut : pieces s t = left ++ right) (filled : left ≠ []) (more : right ≠ []) :
    (s.run (joinWith [.char ','] left)).AtTop := by
  induction t generalizing s left with
  | nil =>
    have single : [[]] = left ++ right := cut
    cases left with
    | nil => exact absurd rfl filled
    | cons p left => simp [more] at single
  | cons c t ih =>
    obtain ⟨p, left, rfl⟩ := List.exists_cons_of_ne_nil filled
    cases separates : s.separates c
    · rw [pieces_cons_of_not_separates separates] at cut
      obtain ⟨p', ps, found⟩ := List.exists_cons_of_ne_nil (pieces_ne_nil (s.step c) t)
      rw [found, List.modifyHead_cons, List.cons_append] at cut
      obtain ⟨rfl, rfl⟩ := List.cons.inj cut
      rw [joinWith_cons_head, run_cons]
      exact ih found (List.cons_ne_nil _ _)
    · obtain ⟨rfl, top⟩ := separates_iff.mp separates
      rw [pieces_cons_of_separates separates, List.cons_append] at cut
      obtain ⟨rfl, later⟩ := List.cons.inj cut
      by_cases last : left = []
      · rw [last]
        exact top
      · rw [joinWith_cons_of_ne_nil [] last]
        exact ih later last

theorem cutsAtTop_pieces (t : Text) : CutsAtTop t (pieces {} t) where
  joined := joinWith_pieces {} t
  cut_iff before after split := by
    rw [outside_zero_iff]
    constructor
    · intro top
      have cut : pieces {} (before ++ .char ',' :: after) = _ := pieces_of_atTop top
      rw [← split] at cut
      exact ⟨_, _, cut, pieces_ne_nil _ _, pieces_ne_nil _ _, joinWith_pieces _ _, joinWith_pieces _ _⟩
    · rintro ⟨left, right, cut, filled, more, rfl, _⟩
      exact atTop_of_pieces cut filled more

/-- No comma of a piece separates arguments where the piece stands, nor where it stands alone. -/
theorem uncut_of_pieces (cut : pieces s t = u :: ps) :
    (∀ before after, u = before ++ .char ',' :: after → ¬(s.run before).AtTop) ∧
      ∀ p ∈ ps, Uncut p := by
  induction t generalizing s u ps with
  | nil =>
    obtain ⟨rfl, rfl⟩ := List.cons.inj cut
    exact ⟨fun before after split => by simp at split, List.forall_mem_nil _⟩
  | cons c t ih =>
    obtain ⟨p, qs, found⟩ := List.exists_cons_of_ne_nil (pieces_ne_nil (s.step c) t)
    obtain ⟨first, others⟩ := ih found
    cases separates : s.separates c
    · rw [pieces_cons_of_not_separates separates, found] at cut
      obtain ⟨rfl, rfl⟩ := List.cons.inj cut
      refine ⟨fun before after split top => ?_, others⟩
      cases before with
      | nil =>
        have separates' := separates_iff.mpr ⟨(List.cons.inj split).1, top⟩
        rw [run_nil, separates] at separates'
        cases separates'
      | cons b before =>
        obtain ⟨rfl, rest⟩ := List.cons.inj split
        exact first before after rest top
    · obtain ⟨rfl, top⟩ := separates_iff.mp separates
      rw [pieces_cons_of_separates separates, found] at cut
      obtain ⟨rfl, rfl⟩ := List.cons.inj cut
      refine ⟨fun before after split => by simp at split, List.forall_mem_cons.mpr ⟨?_, others⟩⟩
      -- behind the comma, the scan is where a scan begins
      have agree := agree_of_atTop atTop_start (top.step (c := .char ',') rfl rfl)
      exact fun before after split reached =>
        first before after split ((agree.run before).atTop reached)

theorem uncut_of_mem_pieces (member : u ∈ pieces {} t) : Uncut u := by
  obtain ⟨p, ps, found⟩ := List.exists_cons_of_ne_nil (pieces_ne_nil {} t)
  obtain ⟨first, others⟩ := uncut_of_pieces found
  rw [found] at member
  rcases List.mem_cons.mp member with rfl | later
  · exact first
  · exact others u later

/-- Behind a first piece stands a comma or nothing. -/
theorem exists_rest_of_pieces {p : Text} (cut : pieces s t = p :: ps) :
    ∃ rest, t = p ++ rest ∧ ∀ c, rest.head? = some c → c = ',' := by
  have whole := joinWith_pieces s t
  rw [cut] at whole
  by_cases more : ps = []
  · subst more
    exact ⟨[], by rw [List.append_nil, ← whole]; rfl, fun c none => nomatch none⟩
  · rw [joinWith_cons_of_ne_nil p more] at whole
    refine ⟨.char ',' :: joinWith [.char ','] ps, whole.symm, ?_⟩
    rintro c ⟨rfl⟩
    rfl

theorem pieces_of_closed (closed : Closed t) (uncut : Uncut t) (top : s.AtTop)
    (next : ∀ c, u.head? = some c → c = ',') : ∃ ps, pieces s (t ++ u) = t :: ps := by
  cases u with
  | nil => exact ⟨[], by rw [List.append_nil, pieces_of_uncut uncut top]⟩
  | cons c u =>
    obtain rfl := next c rfl
    exact ⟨_, pieces_append_comma closed uncut top⟩

/-! ### Trimmed pieces -/

theorem isCalm_of_blank (blank : isBlank c = true) : isCalm c = true := by
  by_contra other
  have marks : c = '"' ∨ c = '\'' ∨ c = '\x7b' ∨ c = '[' ∨ c = '(' ∨ c = '\x7d' ∨ c = ']' ∨ c = ')' ∨
      c = ',' := by
    simp only [isCalm, isQuote, bracket, isOpener, isCloser] at other
    grind
  rcases marks with rfl | rfl | rfl | rfl | rfl | rfl | rfl | rfl | rfl <;> cases blank

theorem Uncut.trim (uncut : Uncut t) : Uncut t.trim := by
  obtain ⟨leading, trailing, whole, blank, _⟩ := trim_split t
  have start := (closed_of_calm fun c member => isCalm_of_blank (blank c member)).1
  intro before after split reached
  refine uncut (leading ++ before) (after ++ trailing) ?_ ?_
  · rw [whole, split]
    simp
  · rw [run_append]
    exact ((agree_of_atTop atTop_start start).run before).atTop reached

theorem withoutEmptyLast_concat (ps : List Text) (p : Text) :
    withoutEmptyLast (ps ++ [p]) = ps ++ if p = [] then [] else [p] := by
  induction ps with
  | nil => cases p <;> rfl
  | cons first ps ih =>
    obtain ⟨q, qs, more⟩ := List.exists_cons_of_ne_nil (List.append_ne_nil_of_right_ne_nil ps
      (List.cons_ne_nil p []))
    rw [List.cons_append, more, withoutEmptyLast, ← more, ih, List.cons_append]

/-- Splitting gives the pieces trimmed, without the last one if it is blank. -/
theorem split_of_pieces {init : List Text} {last : Text} (cut : pieces {} t = init ++ [last]) :
    split t = init.map Text.trim ++ if last.trim = [] then [] else [last.trim] := by
  rw [split, cut, List.map_append, List.map_singleton, withoutEmptyLast_concat]

theorem exists_piece_of_mem_split (member : u ∈ split t) : ∃ p ∈ pieces {} t, u = p.trim := by
  rcases List.eq_nil_or_concat (pieces {} t) with empty | ⟨init, last, cut⟩
  · exact absurd empty (pieces_ne_nil {} t)
  · rw [List.concat_eq_append] at cut
    rw [split_of_pieces cut] at member
    rw [cut]
    rcases List.mem_append.mp member with early | final
    · obtain ⟨p, listed, rfl⟩ := List.mem_map.mp early
      exact ⟨p, List.mem_append_left _ listed, rfl⟩
    · refine ⟨last, by simp, ?_⟩
      split at final
      · cases final
      · exact List.mem_singleton.mp final

theorem trimmed_of_mem_split (member : u ∈ split t) : u.trim = u ∧ Uncut u := by
  obtain ⟨p, listed, rfl⟩ := exists_piece_of_mem_split member
  exact ⟨trim_trim p, (uncut_of_mem_pieces listed).trim⟩

/-- Splitting cuts a text at its commas outside quoted texts and brackets and trims the pieces. A blank
last piece is left out, and an argument splits into itself alone. -/
theorem split_cuts_at_top (t : Text) :
    ∃ init last, CutsAtTop t (init ++ [last]) ∧
      split t = (init.map Text.trim ++ if last.trim = [] then [] else [last.trim]) ∧
      ∀ a ∈ split t, a ≠ [] → split a = [a] := by
  rcases List.eq_nil_or_concat (pieces {} t) with empty | ⟨init, last, cut⟩
  · exact absurd empty (pieces_ne_nil {} t)
  · rw [List.concat_eq_append] at cut
    refine ⟨init, last, cut ▸ cutsAtTop_pieces t, split_of_pieces cut, fun a member filled => ?_⟩
    obtain ⟨trimmed, uncut⟩ := trimmed_of_mem_split member
    have alone : pieces {} a = [] ++ [a] := pieces_of_uncut uncut atTop_start
    rw [split_of_pieces alone, trimmed, if_neg filled]
    rfl

example : split "1,,\"a\\\",b\", )(,".toText = ["1".toText, [], "\"a\\\",b\"".toText, ")(".toText] := by
  decide

/-! ### Arguments that are joined and split -/

theorem eq_of_blank_append {spaces : Text} {x y : Text} (blank : ∀ c ∈ spaces, isBlank c = true)
    (blank' : ∀ c ∈ u, isBlank c = true) (stops : ∀ c, x.head? = some c → isBlank c = false)
    (stops' : ∀ c, y.head? = some c → isBlank c = false) (same : spaces ++ x = u ++ y) :
    spaces = u ∧ x = y := by
  have taken {b z : Text} (blank : ∀ c ∈ b, isBlank c = true)
      (stops : ∀ c, z.head? = some c → isBlank c = false) : (b ++ z).takeWhile isBlank = b := by
    rw [List.takeWhile_append_of_pos blank]
    cases z with
    | nil => simp
    | cons c z => simp [stops c rfl]
  have first : spaces = u := by rw [← taken blank stops, same, taken blank' stops']
  subst first
  exact ⟨rfl, List.append_cancel_left same⟩

/-- A first piece begins behind the blanks before it, and trimmed it ends at a comma, at a blank or
where the text ends. -/
theorem exists_rest_of_trim {spaces p : Text} (blank : ∀ c ∈ spaces, isBlank c = true)
    (firm : ∀ c, t.head? = some c → isBlank c = false) (cut : pieces s (spaces ++ t) = p :: ps)
    (filled : p.trim ≠ []) :
    ∃ rest, t = p.trim ++ rest ∧ ∀ c, rest.head? = some c → c = ',' ∨ isBlank c = true := by
  obtain ⟨rest, joined, next⟩ := exists_rest_of_pieces cut
  obtain ⟨leading, trailing, parted, blank', blank''⟩ := trim_split p
  have firm' : ∀ c, (p.trim ++ trailing ++ rest).head? = some c → isBlank c = false := by
    intro c first
    rw [List.append_assoc, List.head?_append_of_ne_nil _ filled] at first
    exact not_blank_of_trim_head first
  have same : spaces ++ t = leading ++ (p.trim ++ trailing ++ rest) := by
    rw [joined, ← List.append_assoc, ← List.append_assoc, ← parted]
  obtain ⟨_, behind⟩ := eq_of_blank_append blank blank' firm firm' same
  refine ⟨trailing ++ rest, by rw [behind, List.append_assoc], fun c head => ?_⟩
  cases trailing with
  | nil => exact .inl (next c head)
  | cons b trailing =>
    cases head
    exact .inr (blank'' _ List.mem_cons_self)

/-- A first piece that is the argument when it is trimmed ends where the argument does. -/
theorem piece_eq {spaces a p : Text} (blank : ∀ c ∈ spaces, isBlank c = true)
    (cut : pieces s (spaces ++ (a ++ .char ',' :: u)) = p :: ps) (more : ps ≠ [])
    (same : p.trim = a) : p = spaces ++ a := by
  obtain ⟨leading, trailing, whole, blank', blank''⟩ := trim_split p
  have joined := joinWith_pieces s (spaces ++ (a ++ .char ',' :: u))
  rw [cut, joinWith_cons_of_ne_nil p more] at joined
  rw [same] at whole
  cases a with
  | nil =>
    rw [List.append_nil] at whole ⊢
    have edges : ∀ c ∈ p, isBlank c = true := by
      rw [whole]
      exact List.forall_mem_append.mpr ⟨blank', blank''⟩
    exact (eq_of_blank_append edges blank (by simp; rfl) (by simp; rfl) joined).1
  | cons c a =>
    have firm : isBlank c = false := not_blank_of_trim_head (t := p) (by rw [same]; rfl)
    rw [whole, List.append_assoc, List.append_assoc] at joined
    obtain ⟨rfl, rest⟩ := eq_of_blank_append blank' blank (by simp [firm]) (by simp [firm]) joined
    have behind := List.append_cancel_left rest
    have start : ∀ c ∈ ([] : Text), isBlank c = true := List.forall_mem_nil _
    obtain ⟨rfl, _⟩ := eq_of_blank_append blank'' start (by simp; rfl) (by simp; rfl) behind
    rw [whole, List.append_nil]

/-- An argument that comes out as a first piece is closed, and behind its comma a scan begins. -/
theorem pieces_behind {spaces a p : Text} (top : s.AtTop) (blank : ∀ c ∈ spaces, isBlank c = true)
    (cut : pieces s (spaces ++ (a ++ .char ',' :: u)) = p :: ps) (more : ps ≠ [])
    (same : p.trim = a) : Closed a ∧ ∃ s' : Scan, s'.AtTop ∧ ps = pieces s' u := by
  obtain rfl := piece_eq blank cut more same
  have ends : (s.run (joinWith [.char ','] [spaces ++ a])).AtTop :=
    atTop_of_pieces cut (List.cons_ne_nil _ _) more
  rw [joinWith] at ends
  have start := (closed_of_calm fun c member => isCalm_of_blank (blank c member)).1.atTop top
  have closed : Closed a := by
    rw [run_append] at ends
    exact ((agree_of_atTop start atTop_start).run a).atTop ends
  rw [← List.append_assoc, pieces_append (uncut_of_pieces cut).1,
    pieces_cons_of_separates (separates_iff.mpr ⟨rfl, ends⟩)] at cut
  obtain ⟨_, rfl⟩ := List.cons.inj cut
  exact ⟨closed, _, ends.step (c := .char ',') rfl rfl, rfl⟩

/-- Arguments that come out of splitting as they went in are closed, but for the last. -/
theorem closed_of_pieces {spaces : Text} {tail : List Text} (top : s.AtTop)
    (blank : ∀ c ∈ spaces, isBlank c = true)
    (cut : (pieces s (spaces ++ joinWith [.char ',', .char ' '] args)).map Text.trim = args ++ tail) :
    ∀ a ∈ args.dropLast, Closed a := by
  induction args generalizing s spaces with
  | nil => exact List.forall_mem_nil _
  | cons a args ih =>
    cases args with
    | nil => exact List.forall_mem_nil _
    | cons b args =>
      have joined : spaces ++ joinWith [.char ',', .char ' '] (a :: b :: args) =
          spaces ++ (a ++ .char ',' :: ([.char ' '] ++
            joinWith [.char ',', .char ' '] (b :: args))) := by
        simp [joinWith_cons_cons]
      rw [joined] at cut
      obtain ⟨p, ps, found⟩ := List.exists_cons_of_ne_nil (pieces_ne_nil s
        (spaces ++ (a ++ .char ',' :: ([.char ' '] ++ joinWith [.char ',', .char ' '] (b :: args)))))
      rw [found, List.map_cons, List.cons_append] at cut
      obtain ⟨same, others⟩ := List.cons.inj cut
      have more : ps ≠ [] := by
        rintro rfl
        simp at others
      obtain ⟨closed, s', top', rfl⟩ := pieces_behind top blank found more same
      have later := ih top' (by decide) others
      exact List.forall_mem_cons.mpr ⟨closed, later⟩

theorem exists_tail_of_split (t : Text) : ∃ tail, (pieces {} t).map Text.trim = split t ++ tail := by
  rcases List.eq_nil_or_concat (pieces {} t) with empty | ⟨init, last, cut⟩
  · exact absurd empty (pieces_ne_nil {} t)
  · rw [List.concat_eq_append] at cut
    rw [split_of_pieces cut, cut, List.map_append, List.map_singleton]
    split
    · rename_i blank
      exact ⟨[[]], by simp [blank]⟩
    · exact ⟨[], by simp⟩

theorem getLast?_of_withoutEmptyLast (kept : withoutEmptyLast ps = ps) : ps.getLast? ≠ some [] := by
  rcases List.eq_nil_or_concat ps with rfl | ⟨init, last, rfl⟩
  · simp
  · rw [List.concat_eq_append, withoutEmptyLast_concat] at kept
    rw [List.concat_eq_append, List.getLast?_concat]
    rintro ⟨rfl⟩
    simp at kept

/-- Arguments that are joined are split again into the same arguments exactly if all are trimmed, the
last is not empty, all but the last end outside quoted texts and brackets, and none has a comma
there. -/
theorem split_joinWith_iff (args : List Text) :
    split (joinWith [.char ',', .char ' '] args) = args ↔
      (∀ a ∈ args, a.trim = a) ∧ args.getLast? ≠ some [] ∧ (∀ a ∈ args.dropLast, Outside 0 a) ∧
        ∀ a ∈ args, ∀ before after, a = before ++ .char ',' :: after → ¬Outside 0 before := by
  simp only [outside_zero_iff]
  constructor
  · intro same
    have each : ∀ a ∈ args, a.trim = a ∧ Uncut a := fun a member =>
      trimmed_of_mem_split (same.symm ▸ member)
    obtain ⟨tail, cut⟩ := exists_tail_of_split (joinWith [.char ',', .char ' '] args)
    rw [same] at cut
    have closed : ∀ a ∈ args.dropLast, Closed a :=
      closed_of_pieces atTop_start (List.forall_mem_nil _) cut
    refine ⟨fun a member => (each a member).1, ?_, closed, fun a member => (each a member).2⟩
    by_cases empty : args = []
    · simp [empty]
    · rw [split, map_trim_pieces_joinWith empty (fun a member => (each a member).1) closed
        fun a member => (each a member).2] at same
      exact getLast?_of_withoutEmptyLast same
  · rintro ⟨trimmed, last, closed, uncut⟩
    exact split_joinWith trimmed last closed uncut

end GuardedConsole.Argument
