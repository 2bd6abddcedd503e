import GuardedConsole.Json.Reader

/-!
# Quotes in JSON

In a text without backslashes that is read as JSON the quotes come in pairs, and no word follows the
second quote of a pair directly: `pairsQuotes_of_read`. Each reader is shown to lead from its text to
the rest of it in this sense (`Leads`), numbers and words without passing a quote (`Skips`).
-/

namespace GuardedConsole.Json

variable {c : CodePoint} {t u v rest content digits : Text} {inside : Bool} {fuel : Nat}

def beginsWord (t : Text) : Bool :=
  t.head?.any Text.isAsciiWord

/-- Do the quotes of the text come in pairs, with no ASCII word directly after the second of a pair?
`inside` tells whether the first of a pair has been passed. -/
def pairsQuotes (inside : Bool) : Text → Bool
  | [] => !inside
  | c :: t =>
    if c = '"' then !(inside && beginsWord t) && pairsQuotes (!inside) t else pairsQuotes inside t

theorem pairsQuotes_cons (other : c ≠ '"') : pairsQuotes inside (c :: t) = pairsQuotes inside t := by
  rw [pairsQuotes, if_neg other]

theorem pairsQuotes_open (t : Text) : pairsQuotes false (.char '"' :: t) = pairsQuotes true t := by
  simp [pairsQuotes]

theorem pairsQuotes_close (t : Text) :
    pairsQuotes true (.char '"' :: t) = (!beginsWord t && pairsQuotes false t) := by
  simp [pairsQuotes]

theorem pairsQuotes_append (plain : .char '"' ∉ u) (t : Text) :
    pairsQuotes inside (u ++ t) = pairsQuotes inside t := by
  induction u with
  | nil => rfl
  | cons c u ih =>
    have other := List.ne_of_not_mem_cons plain
    rw [List.cons_append, pairsQuotes_cons (Ne.symm other), ih (List.not_mem_of_not_mem_cons plain)]

/-- An even number of quotes leaves inside what was inside, an odd number exchanges. -/
theorem pairsQuotes_of_append (paired : pairsQuotes inside (u ++ t) = true) :
    pairsQuotes (if u.count (.char '"') % 2 = 0 then inside else !inside) t = true := by
  induction u generalizing inside with
  | nil => exact paired
  | cons c u ih =>
    rw [List.cons_append, pairsQuotes] at paired
    split at paired
    · rename_i quote
      obtain ⟨_, later⟩ := Bool.and_eq_true_iff.mp paired
      have rest := ih later
      rw [quote, List.count_cons_self]
      rcases Nat.mod_two_eq_zero_or_one (u.count (.char '"')) with even | odd
      · rw [if_pos even] at rest
        rw [if_neg (by omega)]
        exact rest
      · rw [if_neg (by omega), Bool.not_not] at rest
        rw [if_pos (by omega)]
        exact rest
    · rename_i other
      rw [List.count_cons_of_ne other]
      exact ih paired

/-! ### What passes no quote -/

/-- What stands in the text before the rest has no quotes. -/
def Skips (t rest : Text) : Prop :=
  ∃ skipped, t = skipped ++ rest ∧ .char '"' ∉ skipped

theorem Skips.refl (t : Text) : Skips t t :=
  ⟨[], rfl, List.not_mem_nil⟩

theorem Skips.trans (first : Skips t u) (second : Skips u v) : Skips t v := by
  obtain ⟨before, rfl, plain⟩ := first
  obtain ⟨after, rfl, plain'⟩ := second
  exact ⟨before ++ after, (List.append_assoc ..).symm, by simp [plain, plain']⟩

theorem skips_cons (other : c ≠ '"') (t : Text) : Skips (c :: t) t :=
  ⟨[c], rfl, by simpa using Ne.symm other⟩

theorem skips_dropWhile {p : CodePoint → Bool} (stops : p '"' = false) (t : Text) :
    Skips t (t.dropWhile p) := by
  refine ⟨t.takeWhile p, List.takeWhile_append_dropWhile.symm, fun member => ?_⟩
  rw [List.all_eq_true.mp List.all_takeWhile _ member] at stops
  cases stops

theorem skips_space (t : Text) : Skips t (skipSpace t) :=
  skips_dropWhile (by decide) t

theorem skips_next (next : skipSpace t = c :: rest) (other : c ≠ '"') : Skips t rest := by
  have passed := skips_space t
  rw [next] at passed
  exact passed.trans (skips_cons other rest)

theorem skips_takeDigits (taken : takeDigits t = (digits, rest)) : Skips t rest := by
  cases taken
  exact skips_dropWhile (by decide) t

theorem skips_takeWhole (taken : takeWhole t = some (digits, rest)) : Skips t rest := by
  unfold takeWhole at taken
  split at taken
  · cases taken
    exact skips_cons (by decide) _
  · split at taken
    · cases taken
    · rename_i taken'
      cases taken
      exact skips_takeDigits taken'

theorem skips_takeFraction (t : Text) : Skips t (takeFraction t).2 := by
  unfold takeFraction
  split
  · split
    · exact .refl _
    · rename_i taken
      exact (skips_cons (by decide) _).trans (skips_takeDigits taken)
  · exact .refl _

theorem skips_takeExponent (t : Text) : Skips t (takeExponent t).2 := by
  unfold takeExponent
  split
  · rename_i e after
    split
    · rename_i letter
      have start : Skips (e :: after) after :=
        skips_cons (by rcases letter with rfl | rfl <;> decide) _
      dsimp only
      split
      · exact .refl _
      · rename_i taken
        refine start.trans ?_
        -- a sign may stand before the digits
        split at taken
        · exact (skips_cons (by decide) _).trans (skips_takeDigits taken)
        · exact (skips_cons (by decide) _).trans (skips_takeDigits taken)
        · exact skips_takeDigits taken
    · exact .refl _
  · exact .refl _

theorem skips_readNumber {j : Json} (read : readNumber t = .ok (j, rest)) : Skips t rest := by
  unfold readNumber at read
  dsimp only at read
  split at read
  · cases read
  · rename_i whole after taken
    have start : Skips t after := by
      split at taken
      · exact (skips_cons (by decide) _).trans (skips_takeWhole taken)
      · exact skips_takeWhole taken
    have passed := start.trans ((skips_takeFraction after).trans (skips_takeExponent _))
    split at read
    · split at read
      · cases read
        exact passed
      · cases read
    · cases read
      exact passed

theorem skips_readAtom {j : Json} (read : readAtom t = .ok (j, rest)) : Skips t rest := by
  unfold readAtom at read
  split at read
  · rename_i word value found
    cases read
    have plain : ∀ entry ∈ words, .char '"' ∉ entry.1 := by decide
    have start : word <+: t := List.isPrefixOf_iff_prefix.mp (by simpa using List.find?_some found)
    refine ⟨word, ?_, plain _ (List.mem_of_find?_eq_some found)⟩
    exact (List.prefix_iff_eq_append.mp start).symm
  · exact skips_readNumber read

/-! ### What passes pairs of quotes -/

/-- If the text has no backslashes, what stands in it before the rest has its quotes in pairs, and no
word after the second of a pair unless the rest begins with it. -/
def Leads (t rest : Text) : Prop :=
  .char '\\' ∉ t → rest <:+ t ∧
    (beginsWord rest = false → pairsQuotes false rest = true → pairsQuotes false t = true)

theorem Skips.leads (skips : Skips t u) (leads : Leads u rest) : Leads t rest := by
  intro noBackslash
  obtain ⟨skipped, rfl, plain⟩ := skips
  obtain ⟨suffix, pairs⟩ := leads fun member => noBackslash (List.mem_append_right _ member)
  refine ⟨suffix.trans (List.suffix_append skipped u), fun noWord paired => ?_⟩
  rw [pairsQuotes_append plain]
  exact pairs noWord paired

theorem Leads.trans (first : Leads t u) (apart : beginsWord u = false) (second : Leads u rest) :
    Leads t rest := by
  intro noBackslash
  obtain ⟨suffix, pairs⟩ := first noBackslash
  obtain ⟨suffix', pairs'⟩ := second fun member => noBackslash (suffix.subset member)
  exact ⟨suffix'.trans suffix, fun noWord paired => pairs apart (pairs' noWord paired)⟩

theorem Leads.refl (t : Text) : Leads t t :=
  fun _ => ⟨List.suffix_refl t, fun _ paired => paired⟩

theorem beginsWord_of_skipSpace (after : beginsWord (skipSpace t) = false) :
    beginsWord t = false := by
  cases t with
  | nil => rfl
  | cons d t =>
    rw [skipSpace, List.dropWhile_cons] at after
    split at after
    · rename_i blank
      simp only [isSpace, Bool.or_eq_true, beq_iff_eq] at blank
      rcases blank with ((rfl | rfl) | rfl) | rfl <;> rfl
    · exact after

theorem Leads.next {after : Text} (first : Leads t u) (next : skipSpace u = c :: rest)
    (noWord : Text.isAsciiWord c = false) (other : c ≠ '"') (second : Leads rest after) :
    Leads t after := by
  have apart : beginsWord u = false := beginsWord_of_skipSpace (by rw [next]; exact noWord)
  exact first.trans apart ((skips_next next other).leads second)

theorem readContent_cons (noBackslash : c ≠ '\\') (t : Text) :
    readContent (c :: t) =
      if c = '"' then some ([], t)
      else if c.toNat < 0x20 then none
      else (readContent t).bind fun (content, after) => some (c :: content, after) := by
  rw [readContent.eq_def]
  dsimp only
  rw [if_neg noBackslash]
  rfl

/-- Without backslashes, the content of a string reaches to the next quote. -/
theorem readContent_eq_some (noBackslash : .char '\\' ∉ t)
    (read : readContent t = some (content, rest)) :
    t = content ++ .char '"' :: rest ∧ .char '"' ∉ content := by
  induction t generalizing content with
  | nil => cases read
  | cons c t ih =>
    have other := List.ne_of_not_mem_cons noBackslash
    rw [readContent_cons (Ne.symm other)] at read
    split at read
    · rename_i quote
      cases read
      exact ⟨by rw [quote]; rfl, List.not_mem_nil⟩
    · rename_i noQuote
      split at read
      · cases read
      · obtain ⟨⟨inner, after⟩, found, same⟩ := Option.bind_eq_some_iff.mp read
        cases same
        obtain ⟨rfl, plain⟩ := ih (List.not_mem_of_not_mem_cons noBackslash) found
        exact ⟨rfl, List.not_mem_cons_of_ne_of_not_mem (Ne.symm noQuote) plain⟩

/-- A content without quotes and backslashes is read as itself, unless it is refused. -/
theorem readContent_append (noQuote : .char '"' ∉ u) (noBackslash : .char '\\' ∉ u)
    (read : readContent (u ++ .char '"' :: v) = some (content, rest)) : content = u ∧ rest = v := by
  induction u generalizing content with
  | nil =>
    rw [List.nil_append, readContent_cons (by decide), if_pos rfl] at read
    cases read
    exact ⟨rfl, rfl⟩
  | cons c u ih =>
    have quote := List.ne_of_not_mem_cons noQuote
    have backslash := List.ne_of_not_mem_cons noBackslash
    rw [List.cons_append, readContent_cons (Ne.symm backslash), if_neg (Ne.symm quote)] at read
    split at read
    · cases read
    · obtain ⟨⟨inner, after⟩, found, same⟩ := Option.bind_eq_some_iff.mp read
      cases same
      obtain ⟨rfl, rfl⟩ := ih (List.not_mem_of_not_mem_cons noQuote)
        (List.not_mem_of_not_mem_cons noBackslash) found
      exact ⟨rfl, rfl⟩

theorem readString_eq_ok {s : Text} (read : readString t = .ok (s, rest)) :
    readContent t = some (s, rest) := by
  unfold readString at read
  split at read
  · rename_i found
    cases read
    exact found
  · cases read

/-- A quoted text without quotes and backslashes is read as itself, unless it is refused. -/
theorem readString_append {s : Text} (noQuote : .char '"' ∉ u) (noBackslash : .char '\\' ∉ u)
    (read : readString (u ++ .char '"' :: v) = .ok (s, rest)) : s = u ∧ rest = v :=
  readContent_append noQuote noBackslash (readString_eq_ok read)

theorem readValue_quoted {j : Json} (noQuote : .char '"' ∉ u) (noBackslash : .char '\\' ∉ u)
    (read : readValue fuel (.char '"' :: (u ++ .char '"' :: v)) = .ok (j, rest)) :
    j = .text u ∧ rest = v := by
  cases fuel with
  | zero => cases read
  | succ fuel =>
    rw [readValue] at read
    split at read
    · rename_i string
      cases read
      obtain ⟨rfl, rfl⟩ := readString_append noQuote noBackslash string
      exact ⟨rfl, rfl⟩
    · cases read

theorem leads_readString {s : Text} (read : readString t = .ok (s, rest)) :
    Leads (.char '"' :: t) rest := by
  intro noBackslash
  obtain ⟨rfl, plain⟩ :=
    readContent_eq_some (List.not_mem_of_not_mem_cons noBackslash) (readString_eq_ok read)
  refine ⟨⟨.char '"' :: (s ++ [.char '"']), by simp⟩, fun noWord paired => ?_⟩
  rw [pairsQuotes_open, pairsQuotes_append plain, pairsQuotes_close, noWord, paired]
  rfl

/-- The readers lead from their texts to what they leave of them. -/
structure ReadersLead (fuel : Nat) : Prop where
  value : ∀ {t j rest}, readValue fuel t = .ok (j, rest) → Leads t rest
  items : ∀ {t all rest}, readItems fuel t = .ok (all, rest) → Leads t rest
  members : ∀ {t known all rest}, readMembers fuel known t = .ok (all, rest) → Leads t rest

theorem ReadersLead.readValue {j : Json} (leads : ReadersLead fuel)
    (read : readValue (fuel + 1) t = .ok (j, rest)) : Leads t rest := by
  rw [Json.readValue.eq_def] at read
  dsimp only at read
  split at read
  · split at read
    · rename_i string
      cases read
      exact leads_readString string
    · cases read
  · refine (skips_cons (by decide) _).leads ?_
    split at read
    · rename_i closed
      cases read
      exact (skips_next closed (by decide)).leads (.refl rest)
    · split at read
      · rename_i all
        cases read
        exact (skips_space _).leads (leads.items all)
      · cases read
  · refine (skips_cons (by decide) _).leads ?_
    split at read
    · rename_i closed
      cases read
      exact (skips_next closed (by decide)).leads (.refl rest)
    · split at read
      · rename_i all
        cases read
        exact (skips_space _).leads (leads.members all)
      · cases read
  · exact (skips_readAtom read).leads (.refl rest)

theorem ReadersLead.readItems {all : List Json} (leads : ReadersLead fuel)
    (read : readItems (fuel + 1) t = .ok (all, rest)) : Leads t rest := by
  rw [Json.readItems.eq_def] at read
  dsimp only at read
  split at read
  · cases read
  · rename_i item
    have first := leads.value item
    split at read
    · rename_i closed
      cases read
      exact first.next closed (by decide) (by decide) (.refl rest)
    · rename_i comma
      refine first.next comma (by decide) (by decide) ((skips_space _).leads ?_)
      split at read
      · rename_i others
        cases read
        exact leads.items others
      · cases read
    · cases read

theorem ReadersLead.readMembers {known all : List (Text × Json)} (leads : ReadersLead fuel)
    (read : readMembers (fuel + 1) known t = .ok (all, rest)) : Leads t rest := by
  rw [Json.readMembers.eq_def] at read
  dsimp only at read
  split at read
  · split at read
    · cases read
    · rename_i name
      have first := leads_readString name
      split at read
      · rename_i colon
        refine first.next colon (by decide) (by decide) ((skips_space _).leads ?_)
        split at read
        · cases read
        · rename_i value
          have second := leads.value value
          split at read
          · rename_i closed
            cases read
            exact second.next closed (by decide) (by decide) (.refl rest)
          · rename_i comma
            exact second.next comma (by decide) (by decide)
              ((skips_space _).leads (leads.members read))
          · cases read
      · cases read
  · cases read

theorem readersLead (fuel : Nat) : ReadersLead fuel := by
  induction fuel with
  | zero => exact ⟨fun read => (nomatch read), fun read => (nomatch read), fun read => (nomatch read)⟩
  | succ fuel leads => exact ⟨leads.readValue, leads.readItems, leads.readMembers⟩

/-- A text without backslashes that is JSON has its quotes in pairs, and no word directly after the
second of a pair. -/
theorem pairsQuotes_of_read {j : Json} (noBackslash : .char '\\' ∉ t) (read : read t = .ok j) :
    pairsQuotes false t = true := by
  unfold Json.read at read
  split at read
  · cases read
  · rename_i rest value
    split at read
    · rename_i blank
      have ended : skipSpace rest = [] := List.isEmpty_iff.mp blank
      have apart : beginsWord rest = false := beginsWord_of_skipSpace (by rw [ended]; rfl)
      have tail : Leads rest [] := by
        have passed := skips_space rest
        rw [ended] at passed
        exact passed.leads (.refl [])
      have whole := (skips_space t).leads (((readersLead _).value value).trans apart tail)
      exact (whole noBackslash).2 rfl rfl
    · cases read

end GuardedConsole.Json
