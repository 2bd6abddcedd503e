import GuardedConsole.Json.Basic
import GuardedConsole.Proofs.Json.Strings
import GuardedConsole.Proofs.Text.Halves

/-!
# Escaped texts

What the writer puts between quotes stands for the text that was written, if that is whole
(`denotes_escaped`): a character beyond the first plane is written as two halves, which the reader
joins, and no other halves stand side by side. What the reader makes of a plain source is whole
(`Denotes.isWhole`).
-/

namespace GuardedConsole.Json

open Text

variable {c point : CodePoint} {body content t : Text} {n : Nat}

/-! ### Numbers of code units -/

theorem hexValue?_hexDigit : ∀ d < 16, hexValue? (hexDigit d) = some d := by
  decide

/-- Four hexadecimal digits are read as the number they were written for. -/
theorem hexPoint?_hexDigits (small : n < 0x10000) :
    ∃ w x y z, hexDigits 4 n = [w, x, y, z] ∧ hexPoint? w x y z = some (.ofNat n) := by
  refine ⟨hexDigit (n / 16 / 16 / 16 % 16), hexDigit (n / 16 / 16 % 16), hexDigit (n / 16 % 16),
    hexDigit (n % 16), rfl, ?_⟩
  have digit (m : Nat) : hexValue? (hexDigit (m % 16)) = some (m % 16) :=
    hexValue?_hexDigit _ (Nat.mod_lt _ (by decide))
  have whole : ((n / 16 / 16 / 16 % 16 * 16 + n / 16 / 16 % 16) * 16 + n / 16 % 16) * 16 + n % 16 =
      n := by omega
  simp only [hexPoint?, digit, Option.bind_eq_bind, Option.bind_some, whole]

theorem putEscape_of_apart (apart : ∀ d ∈ content.head?, ¬point.Pairs d) :
    putEscape point body content = point :: content := by
  rcases putEscape_cases point body content with ⟨k, l, after, _, rfl, rfl, _⟩ | same
  · exact (apart (.low l) rfl trivial).elim
  · exact same

theorem denotes_unit (small : n < 0x10000) (denotes : Denotes body content) :
    Denotes (unitEscape n ++ body) (putEscape (.ofNat n) body content) := by
  obtain ⟨w, x, y, z, digits, read⟩ := hexPoint?_hexDigits small
  rw [unitEscape, digits]
  exact .unit read denotes

/-! ### Code points -/

/-- A code point beyond the first plane is written as the two halves that make it up. -/
theorem denotes_pair (large : 0x10000 ≤ c.toNat) (denotes : Denotes body content) :
    Denotes (unitEscape (0xd800 + (c.toNat - 0x10000) / 0x400) ++
      (unitEscape (0xdc00 + (c.toNat - 0x10000) % 0x400) ++ body)) (c :: content) := by
  have bound := c.toNat_lt
  let first : Fin 0x400 := ⟨(c.toNat - 0x10000) / 0x400, by omega⟩
  let second : Fin 0x400 := ⟨(c.toNat - 0x10000) % 0x400, Nat.mod_lt _ (by decide)⟩
  have high : CodePoint.ofNat (0xd800 + (c.toNat - 0x10000) / 0x400) = .high first := by
    rw [← CodePoint.ofNat_toNat (.high first)]
    rfl
  have low : CodePoint.ofNat (0xdc00 + (c.toNat - 0x10000) % 0x400) = .low second := by
    rw [← CodePoint.ofNat_toNat (.low second)]
    rfl
  have paired : CodePoint.paired first second = c := by
    have whole : 0x10000 + (c.toNat - 0x10000) / 0x400 * 0x400 + (c.toNat - 0x10000) % 0x400 =
        c.toNat := by omega
    rw [CodePoint.paired, whole, CodePoint.ofNat_toNat]
  have behind := denotes_unit (n := 0xdc00 + (c.toNat - 0x10000) % 0x400) (by omega) denotes
  rw [low, putEscape_of_apart (fun _ _ => id)] at behind
  have both := denotes_unit (n := 0xd800 + (c.toNat - 0x10000) / 0x400) (by omega) behind
  have joined (digits : Text) : putEscape (.high first)
      (.char '\\' :: .char 'u' :: digits) (.low second :: content) = c :: content := by
    rw [← paired]
    rfl
  rw [high, unitEscape, unitEscape, List.cons_append, List.cons_append, List.cons_append,
    List.cons_append, joined] at both
  exact both

theorem denotes_escapeChar (apart : ∀ d ∈ content.head?, ¬c.Pairs d)
    (denotes : Denotes body content) : Denotes (escapeChar c ++ body) (c :: content) := by
  unfold escapeChar
  split
  · rename_i special
    rcases special with rfl | rfl
    · exact .escape rfl denotes
    · exact .escape rfl denotes
  rename_i plain
  obtain ⟨noQuote, noBackslash⟩ := not_or.mp plain
  split
  · rename_i same
    subst same
    exact .escape rfl denotes
  split
  · rename_i same
    subst same
    exact .escape rfl denotes
  split
  · rename_i same
    subst same
    exact .escape rfl denotes
  split
  · rename_i same
    subst same
    exact .escape rfl denotes
  split
  · rename_i same
    subst same
    exact .escape rfl denotes
  split
  · rename_i shown
    exact .plain noQuote noBackslash (Nat.not_lt.mpr shown.1) denotes
  split
  · rename_i small
    have unit := denotes_unit small denotes
    rwa [CodePoint.ofNat_toNat, putEscape_of_apart apart] at unit
  · rename_i large
    rw [List.append_assoc]
    exact denotes_pair (Nat.not_lt.mp large) denotes

/-- An escaped text stands for itself. -/
theorem denotes_escaped (whole : t.IsWhole) : Denotes (t.flatMap escapeChar) t := by
  induction t with
  | nil => exact .nil
  | cons c t ih =>
    obtain ⟨apart, rest⟩ := isWhole_cons.mp whole
    exact denotes_escapeChar apart (ih rest)

/-! ### Contents of plain sources -/

theorem isHalf_of_escapeValue? {e : CodePoint} (known : escapeValue? e = some point) :
    point.isHalf = false := by
  unfold escapeValue? at known
  split at known <;> cases known <;> rfl

theorem isHalf_paired (k l : Fin 0x400) : (CodePoint.paired k l).isHalf = false := by
  have large : ¬(0x10000 + (k : Nat) * 0x400 + l < 0xe000) := by omega
  rw [CodePoint.paired, CodePoint.ofNat, dif_neg (by omega), dif_neg (by omega)]
  rfl

/-- Behind a plain source a second half comes from an escape. -/
theorem escape_of_denotes_low {l : Fin 0x400} (plain : body.IsPlain)
    (denotes : Denotes body (.low l :: content)) :
    ∃ behind, body = .char '\\' :: .char 'u' :: behind := by
  generalize whole : CodePoint.low l :: content = all at denotes
  cases denotes with
  | nil => cases whole
  | plain _ _ _ _ =>
    cases whole
    exact absurd (plain _ List.mem_cons_self) (by simp [CodePoint.isHalf])
  | escape known _ =>
    cases whole
    cases isHalf_of_escapeValue? known
  | unit _ _ => exact ⟨_, rfl⟩

/-- The content of a plain source is whole: halves that stand side by side are joined. -/
theorem Denotes.isWhole (denotes : Denotes body content) (plain : body.IsPlain) :
    content.IsWhole := by
  induction denotes with
  | nil => exact isWhole_nil
  | plain _ _ _ _ ih =>
    obtain ⟨first, others⟩ := List.forall_mem_cons.mp plain
    exact isWhole_cons_of_char first (ih others)
  | escape known _ ih =>
    have others := plain.mono (List.suffix_append [_, _] _).isInfix
    exact isWhole_cons_of_char (isHalf_of_escapeValue? known) (ih others)
  | @unit w x y z point body content _ denotes ih =>
    have others : body.IsPlain := plain.mono (List.suffix_append [_, _, _, _, _, _] _).isInfix
    have whole := ih others
    rcases putEscape_cases point body content with ⟨k, l, after, _, rfl, rfl, rfl, joined⟩ | apart
    · rw [joined]
      exact isWhole_cons_of_char (isHalf_paired k l) (isWhole_cons.mp whole).2
    · rw [apart]
      refine isWhole_cons.mpr ⟨?_, whole⟩
      intro d first pairs
      -- a pair would have been joined
      cases point with
      | char _ => exact pairs
      | low _ => exact pairs
      | high k =>
        cases d with
        | char _ => exact pairs
        | high _ => exact pairs
        | low l =>
          obtain ⟨after, rfl⟩ : ∃ after, content = .low l :: after := by
            cases content with
            | nil => cases first
            | cons c after => cases first; exact ⟨after, rfl⟩
          obtain ⟨behind, rfl⟩ := escape_of_denotes_low others denotes
          have first := (List.cons.inj apart).1
          have paired := isHalf_paired k l
          rw [first] at paired
          cases paired

end GuardedConsole.Json
