import GuardedConsole.Json.Reader

/-!
# Strings in JSON

`Denotes` says which content a text between the quotes of a string stands for. The reader agrees with
it (`readContent_iff`), so that it sees nothing of what stands behind the closing quote. A part of the
content without quotes is itself what a part of the text stands for (`Denotes.part`).
-/

namespace GuardedConsole.Json

variable {body content rest t : Text} {point : CodePoint}

/-- What stands between the quotes of a string, and the content that it stands for. -/
inductive Denotes : Text → Text → Prop where
  | nil : Denotes [] []
  | plain {c : CodePoint} {body content : Text} : c ≠ '"' → c ≠ '\\' → ¬c.toNat < 0x20 →
    Denotes body content → Denotes (c :: body) (c :: content)
  | escape {e point : CodePoint} {body content : Text} : escapeValue? e = some point →
    Denotes body content → Denotes (.char '\\' :: e :: body) (point :: content)
  | unit {w x y z point : CodePoint} {body content : Text} : hexPoint? w x y z = some point →
    Denotes body content →
      Denotes (.char '\\' :: .char 'u' :: w :: x :: y :: z :: body) (putEscape point body content)

/-- Whether a half is joined with the next one does not depend on what stands behind the quote. -/
theorem putEscape_append (point : CodePoint) (body rest content : Text) :
    putEscape point (body ++ .char '"' :: rest) content = putEscape point body content := by
  rcases body with _ | ⟨c, _ | ⟨d, body⟩⟩
  · simp [putEscape]
  · simp [putEscape]
  · -- only the two characters that both texts begin with are looked at
    unfold putEscape
    simp only [List.cons_append]
    split <;> split <;> grind

theorem escapeValue?_ne_unit {e : CodePoint} (known : escapeValue? e = some point) : e ≠ 'u' := by
  rintro rfl
  cases known

theorem readContent_escape {e : CodePoint} (known : escapeValue? e = some point) (t : Text) :
    readContent (.char '\\' :: e :: t) =
      (readContent t).bind fun (content, rest) => some (point :: content, rest) := by
  rw [readContent.eq_def]
  dsimp only
  rw [if_neg (by decide), if_pos rfl]
  split
  · rename_i unit
    cases unit
    exact absurd rfl (escapeValue?_ne_unit known)
  · rename_i same
    cases same
    rw [known]
    rfl
  · rename_i empty
    cases empty

theorem readContent_of_denotes (denotes : Denotes body content) (rest : Text) :
    readContent (body ++ .char '"' :: rest) = some (content, rest) := by
  induction denotes with
  | nil => rw [List.nil_append, readContent.eq_def]; rfl
  | @plain c body content noQuote noBackslash shown _ ih =>
    rw [List.cons_append, readContent.eq_def]
    dsimp only
    rw [if_neg noQuote, if_neg noBackslash, if_neg shown, ih]
    rfl
  | @escape e point body content known _ ih =>
    rw [List.cons_append, List.cons_append, readContent_escape known, ih]
    rfl
  | @unit w x y z point body content known _ ih =>
    have here : readContent (.char '\\' :: .char 'u' :: w :: x :: y :: z ::
        (body ++ .char '"' :: rest)) =
          (hexPoint? w x y z).bind fun point => (readContent (body ++ .char '"' :: rest)).bind
            fun (content, after) => some (putEscape point (body ++ .char '"' :: rest) content, after) := by
      rw [readContent.eq_def]
      rfl
    simp only [List.cons_append]
    rw [here, known, ih]
    simp [putEscape_append]

theorem readString_of_denotes (denotes : Denotes body content) (rest : Text) :
    readString (body ++ .char '"' :: rest) = .ok (content, rest) := by
  rw [readString, readContent_of_denotes denotes]

theorem denotes_of_readContent (read : readContent t = some (content, rest)) :
    ∃ body, t = body ++ .char '"' :: rest ∧ Denotes body content := by
  fun_induction readContent t generalizing content with
  | case1 => cases read
  | case2 t =>
    cases read
    exact ⟨[], rfl, .nil⟩
  | case3 w x y z behind _ ih =>
    obtain ⟨point, known, read⟩ := Option.bind_eq_some_iff.mp read
    obtain ⟨⟨inner, after⟩, found, same⟩ := Option.bind_eq_some_iff.mp read
    cases same
    obtain ⟨body, rfl, denotes⟩ := ih found
    rw [putEscape_append]
    exact ⟨_, rfl, .unit known denotes⟩
  | case4 e behind _ _ ih =>
    obtain ⟨point, known, read⟩ := Option.bind_eq_some_iff.mp read
    obtain ⟨⟨inner, after⟩, found, same⟩ := Option.bind_eq_some_iff.mp read
    cases same
    obtain ⟨body, rfl, denotes⟩ := ih found
    exact ⟨_, rfl, .escape known denotes⟩
  | case5 => cases read
  | case6 => cases read
  | case7 c behind noQuote noBackslash shown ih =>
    obtain ⟨⟨inner, after⟩, found, same⟩ := Option.bind_eq_some_iff.mp read
    cases same
    obtain ⟨body, rfl, denotes⟩ := ih found
    exact ⟨_, rfl, .plain noQuote noBackslash shown denotes⟩

/-- Reading the content of a string stops at the quote behind a text that denotes it. -/
theorem readContent_iff :
    readContent t = some (content, rest) ↔
      ∃ body, t = body ++ .char '"' :: rest ∧ Denotes body content := by
  constructor
  · exact denotes_of_readContent
  · rintro ⟨body, rfl, denotes⟩
    exact readContent_of_denotes denotes rest

/-! ### Parts of a content -/

theorem not_mem_of_hexPoint? {w x y z c : CodePoint} (known : hexPoint? w x y z = some point)
    (noHex : hexValue? c = none) : c ∉ [w, x, y, z] := by
  have other : ∀ d, hexValue? d ≠ none → c ≠ d := by
    rintro _ hex rfl
    exact hex noHex
  intro member
  simp only [hexPoint?, Option.bind_eq_bind, Option.bind_eq_some_iff] at known
  obtain ⟨_, first, _, second, _, third, _, fourth, _⟩ := known
  simp only [List.mem_cons, List.not_mem_nil, or_false] at member
  rcases member with same | same | same | same
  · exact other w (by simp [first]) same
  · exact other x (by simp [second]) same
  · exact other y (by simp [third]) same
  · exact other z (by simp [fourth]) same

/-- What is put before a content, or joined with its first half, is one character. -/
theorem putEscape_cases (point : CodePoint) (body content : Text) :
    (∃ k l after behind, point = .high k ∧ content = .low l :: after ∧
        body = .char '\\' :: .char 'u' :: behind ∧
        putEscape point body content = CodePoint.paired k l :: after) ∨
      putEscape point body content = point :: content := by
  unfold putEscape
  split
  · exact .inl ⟨_, _, _, _, rfl, rfl, rfl, rfl⟩
  · exact .inr rfl

theorem putEscape_part {b s : Text} (apart : putEscape point body content = point :: content)
    (begins : b <+: body) (begins' : s <+: content) : putEscape point b s = point :: s := by
  rcases putEscape_cases point b s with ⟨k, l, after, behind, rfl, rfl, rfl, _⟩ | same
  · obtain ⟨more, rfl⟩ := begins
    obtain ⟨more', rfl⟩ := begins'
    exact absurd apart (by simp [putEscape, CodePoint.paired])
  · exact same

/-- A second half that stands behind the beginning of an escape comes from an escape itself. -/
theorem escape_of_low {l : Fin 0x400} {b s behind : Text}
    (begins : b <+: .char '\\' :: .char 'u' :: behind) (denotes : Denotes b (.low l :: s)) :
    ∃ behind', b = .char '\\' :: .char 'u' :: behind' := by
  rcases b with _ | ⟨c, _ | ⟨d, b⟩⟩
  · cases denotes
  · obtain ⟨rfl, _⟩ := List.cons_prefix_cons.mp begins
    cases denotes
  · obtain ⟨rfl, later⟩ := List.cons_prefix_cons.mp begins
    obtain ⟨rfl, _⟩ := List.cons_prefix_cons.mp later
    exact ⟨b, rfl⟩

theorem Denotes.unit_front {w x y z : CodePoint} {b s : Text} (known : hexPoint? w x y z = some point)
    (denotes : Denotes b s) (begins : b <+: body) (plain : .char '"' ∉ b) :
    ∃ b', b' <+: .char '\\' :: .char 'u' :: w :: x :: y :: z :: body ∧
      Denotes b' (putEscape point b s) ∧ .char '"' ∉ b' := by
  have noHex := not_mem_of_hexPoint? (c := '"') known rfl
  refine ⟨.char '\\' :: .char 'u' :: w :: x :: y :: z :: b, by simpa using begins,
    .unit known denotes, ?_⟩
  simp only [List.mem_cons, not_or] at noHex ⊢
  simp [noHex, plain]

/-- The beginning of a content without quotes is what the beginning of the body stands for. -/
theorem Denotes.front {s : Text} (denotes : Denotes body content) (begins : s <+: content)
    (noQuote : .char '"' ∉ s) : ∃ b, b <+: body ∧ Denotes b s ∧ .char '"' ∉ b := by
  induction denotes generalizing s with
  | nil =>
    rw [List.prefix_nil.mp begins]
    exact ⟨[], List.nil_prefix, .nil, List.not_mem_nil⟩
  | @plain c body content quote backslash shown _ ih =>
    cases s with
    | nil => exact ⟨[], List.nil_prefix, .nil, List.not_mem_nil⟩
    | cons d s =>
      obtain ⟨rfl, later⟩ := List.cons_prefix_cons.mp begins
      obtain ⟨b, part, denotes, plain⟩ := ih later (List.not_mem_of_not_mem_cons noQuote)
      exact ⟨d :: b, List.cons_prefix_cons.mpr ⟨rfl, part⟩, .plain quote backslash shown denotes,
        List.not_mem_cons_of_ne_of_not_mem (Ne.symm quote) plain⟩
  | @escape e point body content known _ ih =>
    cases s with
    | nil => exact ⟨[], List.nil_prefix, .nil, List.not_mem_nil⟩
    | cons d s =>
      obtain ⟨rfl, later⟩ := List.cons_prefix_cons.mp begins
      obtain ⟨b, part, denotes, plain⟩ := ih later (List.not_mem_of_not_mem_cons noQuote)
      have unquoted : .char '"' ≠ e := by
        rintro rfl
        cases known
        exact noQuote List.mem_cons_self
      refine ⟨.char '\\' :: e :: b, ?_, .escape known denotes, ?_⟩
      · simpa using part
      · simp [unquoted, plain]
  | @unit w x y z point body content known _ ih =>
    cases s with
    | nil => exact ⟨[], List.nil_prefix, .nil, List.not_mem_nil⟩
    | cons d s =>
      have noQuote' := List.not_mem_of_not_mem_cons noQuote
      rcases putEscape_cases point body content with
        ⟨k, l, after, behind, rfl, rfl, rfl, joined⟩ | apart
      · -- the second half is denoted by the beginning of what stands behind the escape
        rw [joined] at begins
        obtain ⟨rfl, later⟩ := List.cons_prefix_cons.mp begins
        obtain ⟨b, part, denotes, plain⟩ := ih (List.cons_prefix_cons.mpr ⟨rfl, later⟩)
          (List.not_mem_cons_of_ne_of_not_mem (nomatch ·) noQuote')
        obtain ⟨behind', rfl⟩ := escape_of_low part denotes
        exact denotes.unit_front known part plain
      · rw [apart] at begins
        obtain ⟨rfl, later⟩ := List.cons_prefix_cons.mp begins
        obtain ⟨b, part, denotes, plain⟩ := ih later noQuote'
        rw [← putEscape_part apart part later]
        exact denotes.unit_front known part plain

/-- Any part of a content without quotes is what some part of the body stands for. -/
theorem Denotes.part {s : Text} (denotes : Denotes body content) (inside : s <:+: content)
    (noQuote : .char '"' ∉ s) : ∃ b, b <:+: body ∧ Denotes b s ∧ .char '"' ∉ b := by
  induction denotes with
  | nil =>
    rw [List.infix_nil.mp inside]
    exact ⟨[], List.nil_infix, .nil, List.not_mem_nil⟩
  | plain quote backslash shown rest ih =>
    rcases List.infix_cons_iff.mp inside with begins | later
    · obtain ⟨b, part, found⟩ := (Denotes.plain quote backslash shown rest).front begins noQuote
      exact ⟨b, part.isInfix, found⟩
    · obtain ⟨b, part, found⟩ := ih later
      exact ⟨b, part.trans (List.suffix_cons _ _).isInfix, found⟩
  | escape known rest ih =>
    rcases List.infix_cons_iff.mp inside with begins | later
    · obtain ⟨b, part, found⟩ := (Denotes.escape known rest).front begins noQuote
      exact ⟨b, part.isInfix, found⟩
    · obtain ⟨b, part, found⟩ := ih later
      exact ⟨b, part.trans (List.suffix_append [_, _] _).isInfix, found⟩
  | @unit w x y z point body content known rest ih =>
    obtain ⟨first, tail, split, more⟩ : ∃ first tail, putEscape point body content = first :: tail ∧
        tail <:+: content := by
      rcases putEscape_cases point body content with ⟨k, l, after, _, rfl, rfl, rfl, joined⟩ | apart
      · exact ⟨_, after, joined, (List.suffix_cons _ after).isInfix⟩
      · exact ⟨point, content, apart, List.infix_rfl⟩
    have whole := Denotes.unit known rest
    rw [split] at inside whole
    rcases List.infix_cons_iff.mp inside with begins | later
    · obtain ⟨b, part, found⟩ := whole.front begins noQuote
      exact ⟨b, part.isInfix, found⟩
    · obtain ⟨b, part, found⟩ := ih (later.trans more)
      exact ⟨b, part.trans (List.suffix_append [_, _, _, _, _, _] _).isInfix, found⟩

end GuardedConsole.Json
