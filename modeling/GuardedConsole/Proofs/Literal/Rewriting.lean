import GuardedConsole.Proofs.Argument.Levels
import GuardedConsole.Proofs.Literal.BareKeys

/-!
# Scanning the rewritten text

Rewriting a text for JSON does not move the commas that separate arguments, if no quoted text has a
quote of the other kind inside and the text has no backslashes: `pieces_asJson`. A word put in quotes
inside a quoted text would end it, which is excluded by asking for quotes in pairs.
-/

namespace GuardedConsole.Literal

open Text Argument Json

variable {s s' : Scan} {c : CodePoint} {t u word tail : Text}

/-! ### Quotes of one kind -/

/-- Has no quoted text a quote of the other kind inside? -/
def isUnmixed (s : Scan) : Text → Bool
  | [] => true
  | c :: t => (!isQuote c || s.quote.isNone || s.quote == some c) && isUnmixed (s.step c) t

theorem isUnmixed_append (s : Scan) (t u : Text) :
    isUnmixed s (t ++ u) = (isUnmixed s t && isUnmixed (s.run t) u) := by
  induction t generalizing s with
  | nil => rfl
  | cons c t ih => rw [List.cons_append, isUnmixed, isUnmixed, ih, Bool.and_assoc, Scan.run_cons]

theorem isUnmixed_of_agree (agree : Scan.Agree s s') (t : Text) : isUnmixed s t = isUnmixed s' t := by
  induction t generalizing s s' with
  | nil => rfl
  | cons c t ih => rw [isUnmixed, isUnmixed, agree.1, ih (agree.step c)]

theorem isUnmixed_of_no_quotes (noQuotes : ∀ c ∈ t, isQuote c = false) (s : Scan) :
    isUnmixed s t = true := by
  induction t generalizing s with
  | nil => rfl
  | cons c t ih =>
    obtain ⟨first, others⟩ := List.forall_mem_cons.mp noQuotes
    rw [isUnmixed, first, ih others]
    rfl

/-! ### Scanning the rewritten text -/

/-- The scan of a text in which apostrophes are quotes. -/
def straightScan (s : Scan) : Scan :=
  { s with quote := s.quote.map fun _ => .char '"' }

/-- A quote, for an apostrophe too. -/
def straightQuote (c : CodePoint) : CodePoint :=
  if c = '\'' then '"' else c

theorem straightQuotes_cons_eq (c : CodePoint) (t : Text) :
    straightQuotes (c :: t) = straightQuote c :: straightQuotes t := rfl

/-- No backslash stands directly before, and an open quoted text was opened by a quote. -/
structure Settled (s : Scan) : Prop where
  apart : s.escaped = false
  quoted : ∀ q, s.quote = some q → isQuote q = true

theorem settled_start : Settled {} :=
  ⟨rfl, fun _ opened => nomatch opened⟩

theorem Settled.step (settled : Settled s) (noBackslash : c ≠ '\\') : Settled (s.step c) := by
  obtain ⟨quote, depth, escaped⟩ := s
  obtain ⟨apart, quoted⟩ := settled
  cases apart
  cases quote with
  | none =>
    cases isOne : isQuote c
    · exact ⟨by simp [Scan.step, isOne, noBackslash], by simp [Scan.step, isOne]⟩
    · exact ⟨by simp [Scan.step, isOne], by simp [Scan.step, isOne]⟩
  | some q =>
    have opened := quoted q rfl
    refine ⟨by simp [Scan.step, noBackslash], fun q' same => ?_⟩
    by_cases closes : c = q
    · simp [Scan.step, closes] at same
    · simp only [Scan.step, closes, false_and, if_false, Option.some.injEq] at same
      exact same ▸ opened

theorem isQuote_iff : isQuote c = true ↔ c = '"' ∨ c = '\'' := by
  simp [isQuote]

theorem straightQuote_of_quote (isOne : isQuote c = true) : straightQuote c = '"' := by
  rcases isQuote_iff.mp isOne with rfl | rfl <;> rfl

theorem straightQuote_of_other (other : isQuote c = false) : straightQuote c = c := by
  rw [straightQuote, if_neg]
  rintro rfl
  cases other

theorem separates_straight (s : Scan) (c : CodePoint) :
    (straightScan s).separates (straightQuote c) = s.separates c := by
  have comma : (straightQuote c == ',') = (c == ',') := by
    cases isOne : isQuote c
    · rw [straightQuote_of_other isOne]
    · rw [straightQuote_of_quote isOne]
      rcases isQuote_iff.mp isOne with rfl | rfl <;> rfl
  rw [Scan.separates, Scan.separates, comma]
  simp [straightScan]

theorem ne_of_settled {q : CodePoint} (settled : Settled s) (other : isQuote c = false)
    (opened : s.quote = some q) : c ≠ q := by
  rintro rfl
  rw [settled.quoted _ opened] at other
  cases other

theorem step_straight (settled : Settled s)
    (same : (!isQuote c || s.quote.isNone || s.quote == some c) = true) :
    (straightScan s).step (straightQuote c) = straightScan (s.step c) := by
  obtain ⟨quote, depth, escaped⟩ := s
  cases settled.apart
  cases isOne : isQuote c
  · rw [straightQuote_of_other isOne]
    cases quote with
    | none => simp [straightScan, Scan.step, isOne]
    | some q =>
      have other : c ≠ '"' := by
        rintro rfl
        cases isOne
      simp [straightScan, Scan.step, ne_of_settled settled isOne rfl, other]
  · rw [straightQuote_of_quote isOne]
    cases quote with
    | none =>
      have opens : isQuote '"' = true := rfl
      simp [straightScan, Scan.step, isOne, opens]
    | some q =>
      have closes : q = c := by simpa [isOne] using same
      have noBackslash : c ≠ '\\' := by
        rintro rfl
        cases isOne
      simp [straightScan, Scan.step, closes, noBackslash]

theorem step_calm (settled : Settled s) (calm : isCalm c = true) (noBackslash : c ≠ '\\') :
    s.step c = s := by
  simp only [isCalm, Bool.and_eq_true, Bool.not_eq_true', beq_iff_eq] at calm
  obtain ⟨quote, depth, escaped⟩ := s
  cases settled.apart
  cases quote with
  | none => simp [Scan.step, calm.1.1, calm.1.2, noBackslash]
  | some q => simp [Scan.step, ne_of_settled settled calm.1.1 rfl, noBackslash]

theorem run_words (words : ∀ c ∈ word, isAsciiWord c = true) (settled : Settled s) :
    s.run word = s := by
  induction word with
  | nil => rfl
  | cons c word ih =>
    obtain ⟨first, others⟩ := List.forall_mem_cons.mp words
    have noBackslash : c ≠ '\\' := by
      rintro rfl
      cases first
    rw [Scan.run_cons, step_calm settled (calm_of_word first).1 noBackslash, ih others]

/-- What has no comma goes to the first piece. -/
theorem pieces_append_of_not_mem (noComma : .char ',' ∉ u) (s : Scan) (t : Text) :
    pieces s (u ++ t) = (pieces (s.run u) t).modifyHead (u ++ ·) := by
  refine pieces_append fun before after split => ?_
  rw [split] at noComma
  exact absurd (by simp) noComma

theorem pieces_words (words : ∀ c ∈ word, isAsciiWord c = true) (settled : Settled s) (t : Text) :
    pieces s (word ++ t) = (pieces s t).modifyHead (word ++ ·) := by
  rw [pieces_append_of_not_mem (not_mem_of_words words rfl), run_words words settled]

/-! ### Pieces of the rewritten text -/

theorem quote_step (settled : Settled s) (other : isQuote c = false) :
    (s.step c).quote = s.quote := by
  obtain ⟨quote, depth, escaped⟩ := s
  cases quote with
  | none => simp [Scan.step, other]
  | some q => simp [Scan.step, ne_of_settled settled other rfl]

/-- A quote is open in the rewritten text exactly if one is open in the text. -/
theorem pairsQuotes_step (settled : Settled s)
    (same : (!isQuote c || s.quote.isNone || s.quote == some c) = true)
    (paired : pairsQuotes s.quote.isSome (straightQuote c :: t) = true) :
    pairsQuotes (s.step c).quote.isSome t = true := by
  cases isOne : isQuote c
  · have noQuote : c ≠ '"' := by
      rintro rfl
      cases isOne
    rw [straightQuote_of_other isOne, pairsQuotes_cons noQuote] at paired
    rwa [quote_step settled isOne]
  · obtain ⟨quote, depth, escaped⟩ := s
    cases settled.apart
    rw [straightQuote_of_quote isOne] at paired
    cases quote with
    | none =>
      have opened : (Scan.step ⟨none, depth, false⟩ c).quote = some c := by simp [Scan.step, isOne]
      rw [opened]
      exact (pairsQuotes_open t).symm.trans paired
    | some q =>
      have closes : q = c := by simpa [isOne] using same
      have closed : (Scan.step ⟨some q, depth, false⟩ c).quote = none := by simp [Scan.step, closes]
      rw [closed]
      exact (Bool.and_eq_true_iff.mp ((pairsQuotes_close t).symm.trans paired)).2

/-- A key in quotes leaves the scan as it was. -/
theorem run_key (words : ∀ c ∈ word, isAsciiWord c = true) (settled : Settled s)
    (bare : s.quote = none) :
    s.run (.char '"' :: (word ++ [.char '"', .char ':'])) = s := by
  obtain ⟨quote, depth, escaped⟩ := s
  cases settled.apart
  cases bare
  have inside : Settled ⟨some (.char '"'), depth, false⟩ :=
    ⟨rfl, fun _ same => Option.some.inj same ▸ rfl⟩
  have opened : Scan.step ⟨none, depth, false⟩ (.char '"') = ⟨some (.char '"'), depth, false⟩ := rfl
  have closed : Scan.step ⟨some (.char '"'), depth, false⟩ (.char '"') = ⟨none, depth, false⟩ := rfl
  rw [Scan.run_cons, opened, Scan.run_append, run_words words inside, Scan.run_cons, closed,
    Scan.run_cons, step_calm settled rfl (by decide), Scan.run_nil]

theorem settled_straight (settled : Settled s) : Settled (straightScan s) := by
  refine ⟨settled.apart, fun q same => ?_⟩
  obtain ⟨_, _, rfl⟩ := Option.map_eq_some_iff.mp same
  rfl

theorem straightQuotes_words (words : ∀ c ∈ word, isAsciiWord c = true) :
    straightQuotes word = word :=
  straightQuotes_eq_self (not_mem_of_words words rfl)

theorem beginsWord_words (words : ∀ c ∈ word, isAsciiWord c = true) (filled : word ≠ []) (t : Text) :
    beginsWord (word ++ t) = true := by
  obtain ⟨c, word, rfl⟩ := List.exists_cons_of_ne_nil filled
  exact words c List.mem_cons_self

/-- The text as it is tried as JSON behind the word. -/
def asJsonBehind (word t : Text) : Text :=
  straightQuotes (quoteBareKeys word t)

/-- The pieces of the rewritten text are the rewritten pieces. The word stands before the first. -/
def PiecesMatch (s : Scan) (word t : Text) : Prop :=
  ∃ p ps, pieces s t = p :: ps ∧
    pieces (straightScan s) (asJsonBehind word t) = asJsonBehind word p :: ps.map asJson

theorem PiecesMatch.in_word (found : PiecesMatch s (c :: word) t) (settled : Settled s)
    (isWord : isAsciiWord c = true) : PiecesMatch s word (c :: t) := by
  have noBackslash : c ≠ '\\' := by
    rintro rfl
    cases isWord
  have inside : s.separates c = false := by
    rw [Scan.separates, beq_false_of_ne]
    · rfl
    · rintro rfl
      cases isWord
  obtain ⟨p, ps, found, cut⟩ := found
  refine ⟨c :: p, ps, ?_, ?_⟩
  · rw [pieces_cons_of_not_separates inside, step_calm settled (calm_of_word isWord).1 noBackslash,
      found]
    rfl
  · rw [asJsonBehind, asJsonBehind, quoteBareKeys_word isWord, quoteBareKeys_word isWord]
    exact cut

theorem words_reverse (words : ∀ c ∈ word, isAsciiWord c = true) :
    ∀ c ∈ word.reverse, isAsciiWord c = true :=
  fun c member => words c (List.mem_reverse.mp member)

theorem asJsonBehind_nil (words : ∀ c ∈ word, isAsciiWord c = true) :
    asJsonBehind word [] = word.reverse :=
  straightQuotes_words (words_reverse words)

theorem asJsonBehind_key (words : ∀ c ∈ word, isAsciiWord c = true) (filled : word ≠ []) (t : Text) :
    asJsonBehind word (.char ':' :: t) =
      .char '"' :: (word.reverse ++ [.char '"', .char ':']) ++ asJson t := by
  rw [asJsonBehind, quoteBareKeys_colon filled, straightQuotes_cons (by decide),
    straightQuotes_append, straightQuotes_words (words_reverse words),
    straightQuotes_cons (by decide), straightQuotes_cons (by decide), asJson]
  simp

theorem asJsonBehind_other (words : ∀ c ∈ word, isAsciiWord c = true)
    (noWord : isAsciiWord c = false) (noKey : c = ':' → word = []) (t : Text) :
    asJsonBehind word (c :: t) = word.reverse ++ straightQuote c :: asJson t := by
  rw [asJsonBehind, quoteBareKeys_other noWord noKey, straightQuotes_append,
    straightQuotes_words (words_reverse words), straightQuotes_cons_eq, asJson]

theorem PiecesMatch.at_key (found : PiecesMatch s [] t) (settled : Settled s) (bare : s.quote = none)
    (words : ∀ c ∈ word, isAsciiWord c = true) (filled : word ≠ []) :
    PiecesMatch s word (.char ':' :: t) := by
  have same : straightScan s = s := by rw [straightScan, bare, Option.map_none, ← bare]
  have noComma : .char ',' ∉ .char '"' :: (word.reverse ++ [.char '"', .char ':']) := by
    have inWord : .char ',' ∉ word.reverse := not_mem_of_words (words_reverse words) rfl
    simp [inWord]
  obtain ⟨p, ps, found, cut⟩ := found
  refine ⟨.char ':' :: p, ps, ?_, ?_⟩
  · rw [pieces_cons_of_not_separates rfl, step_calm settled rfl (by decide), found]
    rfl
  · rw [same] at cut ⊢
    rw [asJsonBehind_key words filled, asJsonBehind_key words filled,
      pieces_append_of_not_mem noComma, run_key (words_reverse words) settled bare, asJson]
    rw [asJsonBehind] at cut
    rw [cut]
    rfl

theorem PiecesMatch.at_other (found : PiecesMatch (s.step c) [] t) (settled : Settled s)
    (same : (!isQuote c || s.quote.isNone || s.quote == some c) = true)
    (words : ∀ c ∈ word, isAsciiWord c = true) (noWord : isAsciiWord c = false)
    (noKey : c = ':' → word = []) : PiecesMatch s word (c :: t) := by
  obtain ⟨p, ps, found, cut⟩ := found
  have after : pieces (straightScan s) (asJsonBehind word (c :: t)) =
      (pieces (straightScan s) (straightQuote c :: asJsonBehind [] t)).modifyHead
        (word.reverse ++ ·) := by
    rw [asJsonBehind_other words noWord noKey,
      pieces_words (words_reverse words) (settled_straight settled)]
    rfl
  rw [PiecesMatch, after]
  cases separates : s.separates c
  · refine ⟨c :: p, ps, ?_, ?_⟩
    · rw [pieces_cons_of_not_separates separates, found]
      rfl
    · rw [pieces_cons_of_not_separates ((separates_straight s c).trans separates),
        step_straight settled same, cut, asJsonBehind_other words noWord noKey]
      rfl
  · refine ⟨[], p :: ps, ?_, ?_⟩
    · rw [pieces_cons_of_separates separates, found]
    · rw [pieces_cons_of_separates ((separates_straight s c).trans separates),
        step_straight settled same, cut, asJsonBehind_nil words, List.modifyHead_cons,
        List.append_nil]
      rfl

/-- A word is not put in quotes inside a quoted text, where the first quote would end the text. -/
theorem bare_of_paired (words : ∀ c ∈ word, isAsciiWord c = true) (filled : word ≠ [])
    (paired : pairsQuotes s.quote.isSome (asJsonBehind word (.char ':' :: t) ++ tail) = true) :
    s.quote = none ∧ pairsQuotes s.quote.isSome (asJson t ++ tail) = true := by
  rw [asJsonBehind_key words filled, List.cons_append, List.cons_append] at paired
  cases opened : s.quote with
  | none =>
    have noQuote : .char '"' ∉ word.reverse := not_mem_of_words (words_reverse words) rfl
    rw [opened, Option.isSome_none, pairsQuotes_open, List.append_assoc, List.append_assoc,
      pairsQuotes_append noQuote, List.cons_append, pairsQuotes_close, Bool.and_eq_true] at paired
    exact ⟨rfl, (pairsQuotes_cons (by decide)).symm.trans paired.2⟩
  | some q =>
    rw [opened] at paired
    have ends := (pairsQuotes_close _).symm.trans paired
    rw [List.append_assoc, List.append_assoc, beginsWord_words (words_reverse words)
      (List.reverse_ne_nil_iff.mpr filled)] at ends
    cases ends

theorem piecesMatch (words : ∀ c ∈ word, isAsciiWord c = true) (settled : Settled s)
    (noBackslash : .char '\\' ∉ t) (unmixed : isUnmixed s t = true)
    (paired : pairsQuotes s.quote.isSome (asJsonBehind word t ++ tail) = true) :
    PiecesMatch s word t := by
  induction t generalizing s word with
  | nil =>
    have alone := pieces_words (words_reverse words) (settled_straight settled) []
    rw [List.append_nil] at alone
    refine ⟨[], [], rfl, ?_⟩
    rw [asJsonBehind_nil words, alone]
    simp [pieces]
  | cons c t ih =>
    have later := List.not_mem_of_not_mem_cons noBackslash
    rw [isUnmixed, Bool.and_eq_true] at unmixed
    obtain ⟨same, unmixed⟩ := unmixed
    have settled' := settled.step (Ne.symm (List.ne_of_not_mem_cons noBackslash))
    by_cases isWord : isAsciiWord c = true
    · have stays : s.run [c] = s := run_words (List.forall_mem_singleton.mpr isWord) settled
      rw [Scan.run_cons, Scan.run_nil] at stays
      rw [stays] at unmixed
      rw [asJsonBehind, quoteBareKeys_word isWord] at paired
      have words' : ∀ d ∈ c :: word, isAsciiWord d = true := List.forall_mem_cons.mpr ⟨isWord, words⟩
      exact (ih words' settled later unmixed paired).in_word settled isWord
    · rw [Bool.not_eq_true] at isWord
      by_cases key : c = ':' ∧ word ≠ []
      · obtain ⟨rfl, filled⟩ := key
        obtain ⟨bare, paired⟩ := bare_of_paired words filled paired
        rw [step_calm settled rfl (by decide)] at unmixed
        exact (ih (List.forall_mem_nil _) settled later unmixed paired).at_key settled bare words filled
      · have noKey : c = ':' → word = [] := fun colon =>
          Decidable.byContradiction fun filled => key ⟨colon, filled⟩
        have noQuote : .char '"' ∉ word.reverse := not_mem_of_words (words_reverse words) rfl
        rw [asJsonBehind_other words isWord noKey, List.append_assoc, pairsQuotes_append noQuote,
          List.cons_append] at paired
        have paired' := pairsQuotes_step settled same paired
        exact (ih (List.forall_mem_nil _) settled' later unmixed paired').at_other settled same words
          isWord noKey

theorem pieces_asJson (noBackslash : .char '\\' ∉ t) (unmixed : isUnmixed {} t = true)
    (paired : pairsQuotes false (asJson t ++ tail) = true) :
    pieces {} (asJson t) = (pieces {} t).map asJson := by
  obtain ⟨p, ps, found, cut⟩ :=
    piecesMatch (List.forall_mem_nil _) settled_start noBackslash unmixed paired
  rw [found]
  exact cut

end GuardedConsole.Literal
