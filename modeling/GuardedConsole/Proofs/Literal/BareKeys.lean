import GuardedConsole.Proofs.Json.Quotes
import GuardedConsole.Proofs.Text.Joining
import GuardedConsole.Value.Literal

/-!
# Quoting bare keys

`asJson` is the text that is tried as JSON for an object: words before colons are put in quotes, and
apostrophes become quotes. It rewrites a text piece by piece. In a text without quotes, an odd number
of apostrophes leaves an odd number of quotes (`count_asJson`), and without apostrophes nothing is
changed, or a word follows a quote (`asJson_eq_self`).
-/

namespace GuardedConsole.Literal

open Text Json

variable {c : CodePoint} {t s key word tail : Text}

/-- The text of an object as it is tried as JSON. -/
def asJson (t : Text) : Text :=
  straightQuotes (quoteBareKeys [] t)

/-! ### Piece by piece -/

theorem straightQuotes_append (s t : Text) :
    straightQuotes (s ++ t) = straightQuotes s ++ straightQuotes t :=
  List.map_append

theorem straightQuotes_cons (other : c ≠ '\'') (t : Text) :
    straightQuotes (c :: t) = c :: straightQuotes t := by
  rw [straightQuotes, replaceChar, List.map_cons, if_neg other]
  rfl

theorem straightQuotes_eq_self (absent : .char '\'' ∉ t) : straightQuotes t = t := by
  induction t with
  | nil => rfl
  | cons c t ih =>
    rw [straightQuotes_cons (Ne.symm (List.ne_of_not_mem_cons absent)),
      ih (List.not_mem_of_not_mem_cons absent)]

theorem quoteBareKeys_word (isWord : isAsciiWord c = true) (t : Text) :
    quoteBareKeys word (c :: t) = quoteBareKeys (c :: word) t := by
  rw [quoteBareKeys, if_pos isWord]

theorem quoteBareKeys_colon (filled : word ≠ []) (t : Text) :
    quoteBareKeys word (.char ':' :: t) =
      .char '"' :: (word.reverse ++ .char '"' :: .char ':' :: quoteBareKeys [] t) := by
  rw [quoteBareKeys, if_neg (by decide), if_pos (by simpa using filled)]
  rfl

theorem quoteBareKeys_other (noWord : isAsciiWord c = false) (noKey : c = ':' → word = [])
    (t : Text) : quoteBareKeys word (c :: t) = word.reverse ++ c :: quoteBareKeys [] t := by
  rw [quoteBareKeys, if_neg (by simp [noWord]), if_neg (by simpa using noKey)]

/-- A character that is neither in a word nor a colon stays and ends what stands before it. -/
theorem quoteBareKeys_append (noWord : isAsciiWord c = false) (noColon : c ≠ ':') (s t : Text) :
    quoteBareKeys word (s ++ c :: t) = quoteBareKeys word s ++ c :: quoteBareKeys [] t := by
  induction s generalizing word with
  | nil => exact quoteBareKeys_other noWord (fun colon => (noColon colon).elim) t
  | cons d s ih =>
    rw [List.cons_append]
    by_cases isWord : isAsciiWord d = true
    · rw [quoteBareKeys_word isWord, quoteBareKeys_word isWord, ih]
    · rw [Bool.not_eq_true] at isWord
      by_cases key : d = ':' ∧ word ≠ []
      · obtain ⟨rfl, filled⟩ := key
        rw [quoteBareKeys_colon filled, quoteBareKeys_colon filled, ih]
        simp
      · have noKey : d = ':' → word = [] := fun colon =>
          Decidable.byContradiction fun filled => key ⟨colon, filled⟩
        rw [quoteBareKeys_other isWord noKey, quoteBareKeys_other isWord noKey, ih]
        simp

theorem quoteBareKeys_key (words : ∀ c ∈ key, isAsciiWord c = true) (filled : word ≠ [] ∨ key ≠ [])
    (t : Text) :
    quoteBareKeys word (key ++ .char ':' :: t) =
      .char '"' :: (word.reverse ++ key ++ .char '"' :: .char ':' :: quoteBareKeys [] t) := by
  induction key generalizing word with
  | nil =>
    have some : word ≠ [] := filled.resolve_right fun empty => empty rfl
    rw [List.nil_append, quoteBareKeys_colon some, List.append_nil]
  | cons c key ih =>
    obtain ⟨first, others⟩ := List.forall_mem_cons.mp words
    rw [List.cons_append, quoteBareKeys_word first, ih others (.inl (List.cons_ne_nil c word))]
    simp

theorem asJson_append (noWord : isAsciiWord c = false) (noColon : c ≠ ':') (noQuote : c ≠ '\'')
    (s t : Text) : asJson (s ++ c :: t) = asJson s ++ c :: asJson t := by
  rw [asJson, quoteBareKeys_append noWord noColon, straightQuotes_append,
    straightQuotes_cons noQuote]
  rfl

theorem asJson_cons (noWord : isAsciiWord c = false) (noColon : c ≠ ':') (noQuote : c ≠ '\'')
    (t : Text) : asJson (c :: t) = c :: asJson t :=
  asJson_append noWord noColon noQuote [] t

theorem asJson_key (words : ∀ c ∈ key, isAsciiWord c = true) (filled : key ≠ []) (t : Text) :
    asJson (key ++ .char ':' :: t) =
      .char '"' :: (key ++ .char '"' :: .char ':' :: asJson t) := by
  have noQuote : .char '\'' ∉ key := fun member => absurd (words _ member) (by decide)
  rw [asJson, quoteBareKeys_key words (.inr filled), List.reverse_nil, List.nil_append,
    straightQuotes_cons (by decide), straightQuotes_append,
    straightQuotes_eq_self noQuote, straightQuotes_cons (by decide),
    straightQuotes_cons (by decide)]
  rfl

theorem quoteBareKeys_of_noColon (noColon : .char ':' ∉ t) :
    quoteBareKeys word t = word.reverse ++ t := by
  induction t generalizing word with
  | nil => exact (List.append_nil _).symm
  | cons c t ih =>
    have later := List.not_mem_of_not_mem_cons noColon
    by_cases isWord : isAsciiWord c = true
    · rw [quoteBareKeys_word isWord, ih later]
      simp
    · rw [Bool.not_eq_true] at isWord
      have other := Ne.symm (List.ne_of_not_mem_cons noColon)
      rw [quoteBareKeys_other isWord (fun colon => (other colon).elim), ih later]
      rfl

/-- A text without colons and apostrophes is not changed. -/
theorem asJson_of_plain (noColon : .char ':' ∉ t) (noApostrophe : .char '\'' ∉ t) : asJson t = t := by
  rw [asJson, quoteBareKeys_of_noColon noColon]
  exact straightQuotes_eq_self noApostrophe

/-- Texts that are joined with commas are rewritten one by one. -/
theorem asJson_joinWith_parts (parts : List Text) :
    asJson (joinWith ", ".toText parts) = joinWith ", ".toText (parts.map asJson) := by
  have split (p next : Text) (parts : List Text) : joinWith ", ".toText (p :: next :: parts) =
      p ++ .char ',' :: .char ' ' :: joinWith ", ".toText (next :: parts) := by
    rw [joinWith_cons_cons, List.append_assoc]
    rfl
  induction parts with
  | nil => rfl
  | cons p parts ih =>
    cases parts with
    | nil => rfl
    | cons next parts =>
      rw [split, asJson_append (by decide) (by decide) (by decide),
        asJson_cons (by decide) (by decide) (by decide), ih]
      exact (split (asJson p) (asJson next) (parts.map asJson)).symm

/-! ### Quotes -/

theorem mem_quoteBareKeys (member : c ∈ quoteBareKeys word t) : c = '"' ∨ c ∈ word ∨ c ∈ t := by
  fun_induction quoteBareKeys word t with
  | case1 word => exact .inr (.inl (List.mem_reverse.mp member))
  | case2 word d t _ ih =>
    rcases ih member with quote | inWord | later
    · exact .inl quote
    · rcases List.mem_cons.mp inWord with rfl | before
      · exact .inr (.inr List.mem_cons_self)
      · exact .inr (.inl before)
    · exact .inr (.inr (List.mem_cons_of_mem d later))
  | case3 word d t _ key ih =>
    simp only [List.mem_cons, List.cons_append, List.mem_append, List.mem_reverse] at member ih ⊢
    have colon := key.1
    grind
  | case4 word d t _ _ ih =>
    simp only [List.mem_cons, List.mem_append, List.mem_reverse] at member ih ⊢
    grind

theorem mem_asJson (member : c ∈ asJson t) : c = '"' ∨ c ∈ t := by
  obtain ⟨d, inside, rfl⟩ := List.mem_map.mp member
  split
  · exact .inl rfl
  · rcases mem_quoteBareKeys inside with quote | inWord | inText
    · exact .inl quote
    · exact (List.not_mem_nil inWord).elim
    · exact .inr inText

theorem count_quoteBareKeys (word t : Text) :
    (quoteBareKeys word t).count (.char '\'') = word.count (.char '\'') + t.count (.char '\'') ∧
      (quoteBareKeys word t).count (.char '"') % 2 =
        (word.count (.char '"') + t.count (.char '"')) % 2 := by
  fun_induction quoteBareKeys word t with
  | case1 word => simp
  | case2 word d t _ ih =>
    simp only [List.count_cons] at ih ⊢
    omega
  | case3 word d t _ key ih =>
    obtain ⟨rfl, _⟩ := key
    simp only [List.count_nil, Nat.zero_add] at ih
    simp [ih.1]
    omega
  | case4 word d t _ _ ih =>
    simp only [List.count_cons, List.count_append, List.count_reverse, List.count_nil] at ih ⊢
    omega

theorem count_straightQuotes (t : Text) :
    (straightQuotes t).count (.char '"') = t.count (.char '"') + t.count (.char '\'') := by
  induction t with
  | nil => rfl
  | cons c t ih =>
    by_cases apostrophe : c = '\''
    · subst apostrophe
      have replaced : straightQuotes (.char '\'' :: t) = .char '"' :: straightQuotes t := rfl
      rw [replaced, List.count_cons_self, List.count_cons_self, ih,
        List.count_cons_of_ne (by decide)]
      omega
    · rw [straightQuotes_cons apostrophe, List.count_cons, List.count_cons,
        List.count_cons_of_ne apostrophe, ih]
      omega

/-- The quotes of the rewritten text are, but for pairs of them, the apostrophes of the text. -/
theorem count_asJson (noQuote : .char '"' ∉ t) :
    (asJson t).count (.char '"') % 2 = t.count (.char '\'') % 2 := by
  obtain ⟨apostrophes, quotes⟩ := count_quoteBareKeys [] t
  have none := List.count_eq_zero.mpr noQuote
  rw [asJson, count_straightQuotes, apostrophes]
  simp only [List.count_nil] at quotes ⊢
  omega

theorem not_mem_of_words (words : ∀ c ∈ word, isAsciiWord c = true)
    (noWord : isAsciiWord c = false) : c ∉ word := by
  intro member
  rw [words c member] at noWord
  cases noWord

/-- A text without quotes is not changed, or a word in it is put in quotes. -/
theorem quoteBareKeys_cases (words : ∀ c ∈ word, isAsciiWord c = true) (noQuote : .char '"' ∉ t) :
    quoteBareKeys word t = word.reverse ++ t ∨
      ∃ before c after, quoteBareKeys word t = before ++ .char '"' :: c :: after ∧
        .char '"' ∉ before ∧ isAsciiWord c = true := by
  induction t generalizing word with
  | nil => exact .inl (List.append_nil _).symm
  | cons c t ih =>
    have later := List.not_mem_of_not_mem_cons noQuote
    by_cases isWord : isAsciiWord c = true
    · rw [quoteBareKeys_word isWord]
      rcases ih (List.forall_mem_cons.mpr ⟨isWord, words⟩) later with same | quoted
      · exact .inl (by rw [same]; simp)
      · exact .inr quoted
    · rw [Bool.not_eq_true] at isWord
      have plain : CodePoint.char '"' ∉ word.reverse := by
        rw [List.mem_reverse]
        exact not_mem_of_words words rfl
      by_cases key : c = ':' ∧ word ≠ []
      · obtain ⟨rfl, filled⟩ := key
        obtain ⟨first, rest, split⟩ := List.exists_cons_of_ne_nil (List.reverse_ne_nil_iff.mpr filled)
        have isWord' := words first (List.mem_reverse.mp (by rw [split]; exact List.mem_cons_self))
        rw [quoteBareKeys_colon filled, split]
        exact .inr ⟨[], first, _, rfl, List.not_mem_nil, isWord'⟩
      · have noKey : c = ':' → word = [] := fun colon =>
          Decidable.byContradiction fun filled => key ⟨colon, filled⟩
        rw [quoteBareKeys_other isWord noKey]
        rcases ih (List.forall_mem_nil _) later with same | ⟨before, d, after, quoted, none, isWord'⟩
        · exact .inl (by rw [same]; rfl)
        · refine .inr ⟨word.reverse ++ c :: before, d, after, by simp [quoted], ?_, isWord'⟩
          have other := List.ne_of_not_mem_cons noQuote
          simp only [List.mem_append, List.mem_cons, not_or]
          exact ⟨plain, other, none⟩

theorem asJson_eq_quoteBareKeys (noApostrophe : .char '\'' ∉ t) : asJson t = quoteBareKeys [] t := by
  refine straightQuotes_eq_self fun member => ?_
  rcases mem_quoteBareKeys member with quote | inWord | inText
  · exact absurd quote (by decide)
  · exact List.not_mem_nil inWord
  · exact noApostrophe inText

/-- A text without quotes of either kind is not changed, or a word in it is put in quotes. -/
theorem asJson_cases (noQuote : .char '"' ∉ t) (noApostrophe : .char '\'' ∉ t) :
    asJson t = t ∨ ∃ before c after, asJson t = before ++ .char '"' :: c :: after ∧
      .char '"' ∉ before ∧ isAsciiWord c = true := by
  rw [asJson_eq_quoteBareKeys noApostrophe]
  exact quoteBareKeys_cases (List.forall_mem_nil _) noQuote

/-- Where no word follows a second quote, no word was put in quotes. -/
theorem asJson_eq_self (noQuote : .char '"' ∉ t) (noApostrophe : .char '\'' ∉ t)
    (paired : pairsQuotes true (asJson t ++ tail) = true) : asJson t = t := by
  rcases asJson_cases noQuote noApostrophe with same | ⟨before, c, after, quoted, none, isWord⟩
  · exact same
  · -- the quote before the word would be the second of a pair
    rw [quoted, List.append_assoc, pairsQuotes_append none, List.cons_append,
      pairsQuotes_close] at paired
    simp [beginsWord, isWord] at paired

end GuardedConsole.Literal
