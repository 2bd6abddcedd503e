import GuardedConsole.Argument.Scan
import GuardedConsole.Proofs.Text.Joining
import GuardedConsole.Proofs.Text.Trimming
import GuardedConsole.Text.Word

/-!
# Scanning arguments

The state of a scan is at top level outside quoted texts and brackets. A text is `Closed` if scanning
it ends there, and `Uncut` if no comma in it separates arguments. `split_joinWith` shows that
splitting gives back the trimmed texts that were joined, if all are uncut and all but the last are
closed.
-/

namespace GuardedConsole.Argument

namespace Scan

variable {s s' : Scan} {c : CodePoint} {t u : Text}

/-- The scan is outside quoted texts and brackets. -/
def AtTop (s : Scan) : Prop :=
  s.quote = none ∧ s.depth = 0

/-- Two scans that agree on what follows: the last character counts only inside a quoted text. -/
def Agree (s s' : Scan) : Prop :=
  s.quote = s'.quote ∧ s.depth = s'.depth ∧ (s.quote ≠ none → s.escaped = s'.escaped)

theorem run_nil (s : Scan) : s.run [] = s := rfl

theorem run_cons (s : Scan) (c : CodePoint) (t : Text) : s.run (c :: t) = (s.step c).run t := rfl

theorem run_append (s : Scan) (t u : Text) : s.run (t ++ u) = (s.run t).run u :=
  List.foldl_append

theorem separates_iff : s.separates c = true ↔ c = ',' ∧ s.AtTop := by
  simp [separates, AtTop, and_assoc]

theorem atTop_start : AtTop {} :=
  ⟨rfl, rfl⟩

theorem AtTop.step (top : s.AtTop) (noQuote : isQuote c = false) (noBracket : bracket c = 0) :
    (s.step c).AtTop := by
  obtain ⟨quote, depth, escaped⟩ := s
  obtain ⟨rfl, rfl⟩ := top
  simp [Scan.step, noQuote, noBracket, AtTop]

theorem agree_of_atTop (top : s.AtTop) (top' : s'.AtTop) : Agree s s' :=
  ⟨top.1.trans top'.1.symm, top.2.trans top'.2.symm, fun quoted => (quoted top.1).elim⟩

theorem Agree.step (agree : Agree s s') (c : CodePoint) : Agree (s.step c) (s'.step c) := by
  obtain ⟨quote, depth, escaped⟩ := s
  obtain ⟨quote', depth', escaped'⟩ := s'
  obtain ⟨sameQuote, sameDepth, sameEscape⟩ := agree
  dsimp only at sameQuote sameDepth sameEscape
  subst sameQuote sameDepth
  cases quote with
  | none =>
    unfold Scan.step
    dsimp only
    split <;> exact ⟨rfl, rfl, fun _ => rfl⟩
  | some q =>
    rw [sameEscape (Option.some_ne_none q)]
    exact ⟨rfl, rfl, fun _ => rfl⟩

theorem Agree.run (agree : Agree s s') (t : Text) : Agree (s.run t) (s'.run t) := by
  induction t generalizing s s' with
  | nil => exact agree
  | cons c t ih => exact ih (agree.step c)

theorem Agree.atTop (agree : Agree s s') (top : s.AtTop) : s'.AtTop :=
  ⟨agree.1.symm.trans top.1, agree.2.1.symm.trans top.2⟩

end Scan

open Scan Text

variable {s : Scan} {c : CodePoint} {t u rest : Text} {args : List Text}

/-- Scanning the text on its own ends at top level. -/
def Closed (t : Text) : Prop :=
  (run {} t).AtTop

/-- No comma of the text separates arguments when the text is scanned on its own. -/
def Uncut (t : Text) : Prop :=
  ∀ before after, t = before ++ .char ',' :: after → ¬(run {} before).AtTop

theorem Closed.atTop (closed : Closed t) (top : s.AtTop) : (s.run t).AtTop :=
  ((agree_of_atTop atTop_start top).run t).atTop closed

theorem Uncut.not_atTop (uncut : Uncut t) (top : s.AtTop) {before after : Text}
    (split : t = before ++ .char ',' :: after) : ¬(s.run before).AtTop := fun reached =>
  uncut before after split (((agree_of_atTop top atTop_start).run before).atTop reached)

/-! ### Calm characters -/

/-- Is the character one that leaves the state of a scan at top level and separates nothing? -/
def isCalm (c : CodePoint) : Bool :=
  !isQuote c && bracket c == 0 && c != ','

theorem closed_of_calm (calm : ∀ c ∈ t, isCalm c = true) : Closed t ∧ isWellNested t = true := by
  have scanned : ∀ s : Scan, s.AtTop → (s.run t).AtTop ∧ staysNested s t = true := by
    induction t with
    | nil => exact fun s top => ⟨top, rfl⟩
    | cons c t ih =>
      intro s top
      have first := calm c List.mem_cons_self
      simp only [isCalm, Bool.and_eq_true, Bool.not_eq_true', beq_iff_eq] at first
      have next := top.step first.1.1 first.1.2
      obtain ⟨ends, nested⟩ := ih (fun d member => calm d (List.mem_cons_of_mem _ member)) _ next
      refine ⟨ends, ?_⟩
      rw [staysNested, nested, next.2]
      rfl
  exact scanned {} atTop_start

theorem uncut_of_calm (calm : ∀ c ∈ t, isCalm c = true) : Uncut t := by
  rintro before after rfl
  exact absurd (calm (.char ',') (by simp)) (by decide)

theorem calm_of_word (word : isAsciiWord c = true) :
    isCalm c = true ∧ isBlank c = false := by
  have small : c.toNat < 128 := by
    simp only [isAsciiWord, isAsciiLetter, isAsciiDigit, Bool.or_eq_true, Bool.and_eq_true,
      decide_eq_true_eq, beq_iff_eq] at word
    rcases word with ((letter | letter) | digit) | rfl
    · omega
    · omega
    · omega
    · decide
  have each : ∀ n < 128, isAsciiWord (.ofNat n) = true →
      isCalm (.ofNat n) = true ∧ isBlank (.ofNat n) = false := by decide
  have kept := each c.toNat small
  rw [CodePoint.ofNat_toNat] at kept
  exact kept word

/-! ### Pieces -/

theorem pieces_ne_nil (s : Scan) (t : Text) : pieces s t ≠ [] := by
  cases t with
  | nil => exact List.cons_ne_nil _ _
  | cons c t =>
    rw [pieces]
    split
    · exact List.cons_ne_nil _ _
    · split <;> exact List.cons_ne_nil _ _

theorem pieces_cons_of_separates (separates : s.separates c = true) :
    pieces s (c :: t) = [] :: pieces (s.step c) t := by
  rw [pieces, if_pos separates]

theorem pieces_cons_of_not_separates (inside : s.separates c = false) :
    pieces s (c :: t) = (pieces (s.step c) t).modifyHead (c :: ·) := by
  rw [pieces, if_neg (by rw [inside]; decide)]
  cases found : pieces (s.step c) t with
  | nil => exact (pieces_ne_nil _ _ found).elim
  | cons p ps => rfl

/-- What is scanned without meeting a separating comma goes to the first piece. -/
theorem pieces_append
    (uncut : ∀ before after, t = before ++ .char ',' :: after → ¬(s.run before).AtTop) :
    pieces s (t ++ rest) = (pieces (s.run t) rest).modifyHead (t ++ ·) := by
  induction t generalizing s with
  | nil =>
    rw [run_nil, List.nil_append]
    cases pieces s rest <;> rfl
  | cons c t ih =>
    have inside : s.separates c = false := by
      cases separates : s.separates c with
      | false => rfl
      | true =>
        obtain ⟨rfl, top⟩ := separates_iff.mp separates
        exact (uncut [] t rfl top).elim
    have later := ih (s := s.step c) fun before after split =>
      uncut (c :: before) after (by rw [split, List.cons_append])
    rw [List.cons_append, pieces_cons_of_not_separates inside, later, run_cons]
    cases pieces ((s.step c).run t) rest <;> rfl

theorem pieces_of_uncut (uncut : Uncut t) (top : s.AtTop) : pieces s t = [t] := by
  have alone : pieces s (t ++ []) = (pieces (s.run t) []).modifyHead (t ++ ·) :=
    pieces_append fun _ _ => uncut.not_atTop top
  rw [List.append_nil] at alone
  rw [alone]
  simp [pieces]

theorem pieces_append_comma (closed : Closed t) (uncut : Uncut t) (top : s.AtTop) :
    pieces s (t ++ .char ',' :: rest) =
      t :: pieces ((s.run t).step (.char ',')) rest := by
  have separates : (s.run t).separates (.char ',') = true :=
    separates_iff.mpr ⟨rfl, closed.atTop top⟩
  rw [pieces_append fun _ _ => uncut.not_atTop top, pieces_cons_of_separates separates]
  simp

/-- What stands behind a separating comma goes to the next piece. -/
theorem pieces_joinWith {a spaces : Text} (calm : ∀ c ∈ spaces, isCalm c = true)
    (closed : ∀ b ∈ (a :: args).dropLast, Closed b) (uncut : ∀ b ∈ a :: args, Uncut b)
    (top : s.AtTop) :
    pieces s (joinWith (.char ',' :: spaces) (a :: args)) = a :: args.map (spaces ++ ·) := by
  induction args generalizing a s with
  | nil => exact pieces_of_uncut (uncut a List.mem_cons_self) top
  | cons b args ih =>
    have closedFirst := closed a (by simp)
    have afterComma := (closedFirst.atTop top).step (c := .char ',') rfl rfl
    have later := ih (a := b) (fun d member => closed d (by simp [member]))
      (fun d member => uncut d (List.mem_cons_of_mem _ member))
      ((closed_of_calm calm).1.atTop afterComma)
    rw [joinWith_cons_cons, List.append_assoc, List.cons_append,
      pieces_append_comma closedFirst (uncut a List.mem_cons_self) top,
      pieces_append fun _ _ => (uncut_of_calm calm).not_atTop afterComma, later]
    rfl

theorem withoutEmptyLast_eq_self {ps : List Text} (last : ps.getLast? ≠ some []) :
    withoutEmptyLast ps = ps := by
  induction ps with
  | nil => rfl
  | cons p ps ih =>
    cases ps with
    | nil =>
      cases p with
      | nil => exact (last rfl).elim
      | cons c p => rfl
    | cons q ps =>
      rw [List.getLast?_cons_cons] at last
      rw [withoutEmptyLast, ih last]

theorem map_trim_pieces_joinWith (filled : args ≠ []) (trimmed : ∀ a ∈ args, a.trim = a)
    (closed : ∀ a ∈ args.dropLast, Closed a) (uncut : ∀ a ∈ args, Uncut a) :
    (pieces {} (joinWith [.char ',', .char ' '] args)).map Text.trim = args := by
  obtain ⟨a, args, rfl⟩ := List.exists_cons_of_ne_nil filled
  have spaced : (args.map ([CodePoint.char ' '] ++ ·)).map Text.trim = args := by
    rw [List.map_map]
    calc args.map (trim ∘ ([CodePoint.char ' '] ++ ·)) = args.map id :=
          List.map_congr_left fun b member =>
            (trim_cons_of_blank rfl).trans (trimmed b (List.mem_cons_of_mem _ member))
      _ = args := List.map_id args
  rw [pieces_joinWith (by decide) closed uncut atTop_start, List.map_cons, spaced,
    trimmed a List.mem_cons_self]

/-- Splitting undoes joining. -/
theorem split_joinWith (trimmed : ∀ a ∈ args, a.trim = a) (last : args.getLast? ≠ some [])
    (closed : ∀ a ∈ args.dropLast, Closed a) (uncut : ∀ a ∈ args, Uncut a) :
    split (joinWith [.char ',', .char ' '] args) = args := by
  by_cases empty : args = []
  · rw [empty]
    rfl
  · rw [split, map_trim_pieces_joinWith empty trimmed closed uncut, withoutEmptyLast_eq_self last]

/-! ### Nesting -/

theorem staysNested_append (s : Scan) (t u : Text) :
    staysNested s (t ++ u) = (staysNested s t && staysNested (s.run t) u) := by
  induction t generalizing s with
  | nil => rfl
  | cons c t ih =>
    rw [List.cons_append, staysNested, staysNested, ih, Bool.and_assoc, run_cons]

theorem staysNested_of_prefix
    (nested : ∀ before after, t = before ++ after → 0 ≤ (s.run before).depth) :
    staysNested s t = true := by
  induction t generalizing s with
  | nil => rfl
  | cons c t ih =>
    have first : 0 ≤ (s.step c).depth := nested [c] t rfl
    have later := ih (s := s.step c) fun before after split =>
      nested (c :: before) after (by rw [split, List.cons_append])
    rw [staysNested, later, decide_eq_true first]
    rfl

theorem Scan.Agree.staysNested {s s' : Scan} (agree : Agree s s') (t : Text) :
    staysNested s t = staysNested s' t := by
  induction t generalizing s s' with
  | nil => rfl
  | cons c t ih =>
    have next := agree.step c
    rw [Argument.staysNested, Argument.staysNested, next.2.1, ih next]

theorem isWellNested_append (closed : Closed t) (u : Text) :
    isWellNested (t ++ u) = (isWellNested t && isWellNested u) := by
  have agree := agree_of_atTop closed atTop_start
  rw [isWellNested, staysNested_append, agree.staysNested]
  rfl

theorem Closed.append (closed : Closed t) (closed' : Closed u) : Closed (t ++ u) := by
  rw [Closed, run_append]
  exact closed'.atTop closed

theorem Uncut.append (uncut : Uncut t) (closed : Closed t) (uncut' : Uncut u) : Uncut (t ++ u) := by
  intro before after split
  rcases List.append_eq_append_iff.mp split with ⟨inner, rfl, rest⟩ | ⟨inner, whole, rest⟩
  · rw [run_append]
    exact uncut'.not_atTop closed rest
  · cases inner with
    | nil =>
      rw [List.append_nil] at whole
      subst whole
      have first : u = [] ++ .char ',' :: after := rest.symm
      exact uncut'.not_atTop closed first
    | cons comma inner =>
      obtain ⟨rfl, _⟩ := List.cons.inj rest
      exact uncut before inner whole

/-- Texts that close what they open, and nothing else, do so when they are joined. -/
theorem isWellNested_joinWith (closed : ∀ a ∈ args, Closed a)
    (nested : ∀ a ∈ args, isWellNested a = true) :
    isWellNested (joinWith [.char ',', .char ' '] args) = true := by
  induction args with
  | nil => rfl
  | cons a args ih =>
    have first := nested a List.mem_cons_self
    cases args with
    | nil => exact first
    | cons b args =>
      have later := ih (fun d member => closed d (List.mem_cons_of_mem _ member))
        fun d member => nested d (List.mem_cons_of_mem _ member)
      have separator : Closed [.char ',', .char ' '] := ⟨rfl, rfl⟩
      rw [joinWith_cons_cons, isWellNested_append ((closed a List.mem_cons_self).append separator),
        isWellNested_append (closed a List.mem_cons_self), first, later]
      rfl

/-! ### Arguments on their own -/

/-- The text is one argument wherever arguments are joined. -/
structure Standalone (t : Text) : Prop where
  closed : Closed t
  uncut : Uncut t
  nested : isWellNested t = true
  trimmed : t.trim = t
  nonempty : t ≠ []

/-- An argument stays one if characters stand before it that leave the scan at top level. -/
theorem Standalone.prepend (standalone : Standalone u) (calm : ∀ c ∈ t, isCalm c = true)
    (first : ∀ c, (t ++ u).head? = some c → isBlank c = false)
    (last : ∀ c, (t ++ u).getLast? = some c → isBlank c = false) : Standalone (t ++ u) where
  closed := (closed_of_calm calm).1.append standalone.closed
  uncut := (uncut_of_calm calm).append (closed_of_calm calm).1 standalone.uncut
  nested := by
    rw [isWellNested_append (closed_of_calm calm).1, (closed_of_calm calm).2, standalone.nested]
    rfl
  trimmed := trim_eq_self first last
  nonempty empty := standalone.nonempty (List.append_eq_nil_iff.mp empty).2

theorem Standalone.append (standalone : Standalone t) (standalone' : Standalone u) :
    Standalone (t ++ u) where
  closed := standalone.closed.append standalone'.closed
  uncut := standalone.uncut.append standalone.closed standalone'.uncut
  nested := by
    rw [isWellNested_append standalone.closed, standalone.nested, standalone'.nested]
    rfl
  trimmed := by
    refine trim_eq_self (fun c first => ?_) fun c last => ?_
    · rw [List.head?_append_of_ne_nil _ standalone.nonempty, ← standalone.trimmed] at first
      exact not_blank_of_trim_head first
    · rw [List.getLast?_append_of_ne_nil _ standalone'.nonempty, ← standalone'.trimmed] at last
      exact not_blank_of_trim last
  nonempty empty := standalone.nonempty (List.append_eq_nil_iff.mp empty).1

theorem split_of_standalone (standalone : ∀ a ∈ args, Standalone a) :
    split (joinWith [.char ',', .char ' '] args) = args := by
  refine split_joinWith (fun a member => (standalone a member).trimmed) ?_
    (fun a member => (standalone a (List.dropLast_subset args member)).closed)
    fun a member => (standalone a member).uncut
  intro last
  exact (standalone [] (List.mem_of_getLast? last)).nonempty rfl

end GuardedConsole.Argument
