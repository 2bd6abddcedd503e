import GuardedConsole.Proofs.Json.Texts
import GuardedConsole.Proofs.Literal.Depth
import GuardedConsole.Proofs.Literal.Objects
import GuardedConsole.Proofs.Screening.Breaks
import GuardedConsole.Proofs.Value.Cleaning
import GuardedConsole.Proofs.Value.Data

/-!
# Decoding and screening

Decoding takes angle brackets out of texts and replaces escapes, either of which can make a denied
text of one that is not (`read_denied`). `Screened` is a text that is clean also without its brackets
and with escapes replaced in any part of it. `read_object_clean` shows that all texts of an object
decoded from it are clean.
-/

namespace GuardedConsole

/-- The text is the value, or one inside dictionaries at any depth. -/
inductive Value.HasText (s : Text) : Value → Prop where
  | here : HasText s (.text s)
  | entry {entry : Value × Value} {entries : List (Value × Value)} : entry ∈ entries →
    HasText s entry.2 → HasText s (.dict entries)

namespace Literal

open Text Argument Screening

variable {s t u key text : Text} {v : Value} {c : CodePoint}

/-- No denied pattern matches the text without angle brackets, nor what a part of it stands for
between the quotes of JSON, without angle brackets. -/
structure Screened (t : Text) : Prop where
  bare : findViolation t.withoutBrackets = none
  decoded : ∀ body content, body <:+: t → Json.Denotes body content →
    findViolation content.withoutBrackets = none

theorem Screened.mono (screened : Screened t) (part : u <:+: t) : Screened u where
  bare := clean_of_part screened.bare (part.filter _)
  decoded body content inside := screened.decoded body content (inside.trans part)

theorem withoutBrackets_twice (t : Text) :
    t.withoutBrackets.withoutBrackets = t.withoutBrackets := by
  simp [withoutBrackets]

/-- Taking brackets out takes out no break. -/
theorem traced_withoutBrackets (traced : Traced isBreak u t) :
    Traced isBreak u.withoutBrackets t.withoutBrackets := by
  refine traced.filter fun c dropped => ?_
  have bracket : c = '<' ∨ c = '>' := by
    simpa [imp_iff_not_or, or_comm] using dropped
  rcases bracket with rfl | rfl <;> decide

theorem Screened.clean (screened : Screened t) (traced : Traced isBreak u t) :
    findViolation u.withoutBrackets = none :=
  clean_of_traced screened.bare (traced_withoutBrackets traced)

/-! ### Texts without escapes -/

/-- No backslash stands directly before a letter that JSON reads as more than a break. -/
def HasPlainEscapes (t : Text) : Prop :=
  ∀ c ∈ "fnrtu".toText, ¬[.char '\\', c] <:+: t

instance : Decidable (HasPlainEscapes t) :=
  inferInstanceAs (Decidable (∀ c ∈ "fnrtu".toText, ¬[.char '\\', c] <:+: t))

theorem HasPlainEscapes.mono (plain : HasPlainEscapes t) (part : u <:+: t) : HasPlainEscapes u :=
  fun c listed inside => plain c listed (inside.trans part)

theorem isBreak_of_escapeValue? {e point : CodePoint} (known : Json.escapeValue? e = some point)
    (plain : e ∉ "fnrtu".toText) : isBreak point = true := by
  -- each escape stands for a break, or its letter is excluded
  unfold Json.escapeValue? at known
  split at known <;> cases known <;> first | decide | exact absurd (by decide) plain

theorem patched_of_denotes {body content : Text} (denotes : Json.Denotes body content)
    (plain : HasPlainEscapes body) : Patched isBreak content body := by
  induction denotes with
  | nil => exact .nil []
  | plain _ _ _ _ ih => exact .keep _ (ih (plain.mono (List.suffix_cons _ _).isInfix))
  | @escape e point body content known _ ih =>
    have known' : e ∉ "fnrtu".toText := fun listed =>
      plain e listed (List.prefix_append [.char '\\', e] body).isInfix
    exact .patch [.char '\\', e] (isBreak_of_escapeValue? known known')
      (ih (plain.mono (List.suffix_append [CodePoint.char '\\', e] body).isInfix))
  | @unit w x y z _ body _ _ _ _ =>
    exact (plain (.char 'u') (by decide)
      (List.prefix_append [.char '\\', .char 'u'] (w :: x :: y :: z :: body)).isInfix).elim

/-- Without such escapes, only the brackets matter. -/
theorem screened_of_hasPlainEscapes (plain : HasPlainEscapes t)
    (bare : findViolation t.withoutBrackets = none) : Screened t where
  bare := bare
  decoded body content inside denotes := by
    have patched := patched_of_denotes denotes (plain.mono inside)
    exact clean_of_traced bare
      (traced_withoutBrackets (patched.traced.trans (traced_of_part inside)))

/-! ### Objects that are JSON -/

theorem patched_quoteBareKeys (word t : Text) :
    Patched (· == .char '"') (quoteBareKeys word t) (word.reverse ++ t) := by
  fun_induction quoteBareKeys word t with
  | case1 word =>
    rw [List.append_nil]
    exact patched_refl _
  | case2 word c t _ ih => simpa using ih
  | case3 word c t _ key ih =>
    obtain ⟨rfl, _⟩ := key
    exact .patch [] rfl ((Patched.patch [] rfl (.keep _ ih)).keep_append _)
  | case4 word c t _ _ ih => exact (Patched.keep c ih).keep_append _

/-- Parts without quotes of what is tried as JSON come from the text itself. -/
theorem traced_asJson (t : Text) : Traced (· == .char '"') (asJson t) t :=
  (patched_replaceChar rfl (quoteBareKeys [] t)).traced.trans (patched_quoteBareKeys [] t).traced

theorem Screened.clean_of_spelled (screened : Screened t) (spelled : Json.Spelled s (asJson t)) :
    findViolation s.withoutBrackets = none := by
  obtain ⟨body, inside, denotes⟩ := spelled
  refine clean_of_parts fun part within unbroken => ?_
  obtain ⟨whole, found, rfl⟩ := List.infix_filter_iff.mp within
  have noQuote : .char '"' ∉ whole := fun member =>
    absurd (unbroken _ (List.mem_filter.mpr ⟨member, rfl⟩)) (by decide)
  obtain ⟨b, within', denotes', plain⟩ := denotes.part found noQuote
  refine screened.decoded b whole (traced_asJson t b (within'.trans inside) fun c member => ?_) denotes'
  rw [beq_eq_false_iff_ne]
  rintro rfl
  exact plain member

theorem mem_ofMembers {members : List (Text × Json)} {entry : Value × Value}
    (listed : entry ∈ Value.ofMembers members) :
    ∃ member ∈ members, entry = (.text member.1, Value.ofJson member.2) := by
  induction members with
  | nil => cases listed
  | cons member members ih =>
    rw [Value.ofMembers] at listed
    rcases List.mem_cons.mp listed with rfl | later
    · exact ⟨member, List.mem_cons_self, rfl⟩
    · obtain ⟨found, inside, same⟩ := ih later
      exact ⟨found, List.mem_cons_of_mem _ inside, same⟩

theorem hasText_of_ofJson {j : Json} (has : (Value.ofJson j).HasText s) : j.HasText s := by
  generalize made : Value.ofJson j = v at has
  induction has generalizing j with
  | here =>
    cases j <;> simp only [Value.ofJson, reduceCtorEq, Value.text.injEq] at made
    exact made ▸ .here
  | entry listed _ ih =>
    cases j <;> simp only [Value.ofJson, reduceCtorEq, Value.dict.injEq] at made
    subst made
    obtain ⟨member, inside, rfl⟩ := mem_ofMembers listed
    exact .member inside (ih rfl)

/-! ### Quoted texts -/

/-- Dropping backslashes before quotes leaves a part of the text with breaks in place of them. -/
theorem traced_of_quotedContent? {content : Text} (quoted : quotedContent? t = some content) :
    Traced isBreak content t := by
  obtain ⟨inner, unquoted, rfl⟩ := Option.map_eq_some_iff.mp quoted
  have inside : inner <:+: t := by
    unfold Time.Literal.unquote? at unquoted
    split at unquoted
    · split at unquoted
      · cases unquoted
        exact (List.dropLast_prefix _).isInfix.trans (List.suffix_cons _ _).isInfix
      · cases unquoted
    · cases unquoted
  have single := (patched_unescape (by decide : isBreak '\'' = true) (unescape '"' inner)).traced
  have double := (patched_unescape (by decide : isBreak '"' = true) inner).traced
  exact (single.trans double).trans (traced_of_part inside)

/-! ### Cleaning -/

/-- The texts of a cleaned value are those of the value without brackets. -/
theorem hasText_of_sanitizeItem (has : v.sanitizeItem.HasText s) :
    ∃ s', v.HasText s' ∧ s = s'.withoutBrackets := by
  generalize made : v.sanitizeItem = w at has
  induction has generalizing v with
  | here =>
    cases v <;> simp only [Value.sanitizeItem, reduceCtorEq, Value.text.injEq] at made
    exact ⟨_, .here, made.symm⟩
  | entry listed _ ih =>
    cases v <;> simp only [Value.sanitizeItem, reduceCtorEq, Value.dict.injEq] at made
    subst made
    obtain ⟨before, inside, _, rfl⟩ := Entries.mem_sanitizeEntries_iff.mp listed
    obtain ⟨s', has, same⟩ := ih rfl
    exact ⟨s', .entry inside has, same⟩

/-! ### Clean texts -/

/-- All texts of the value are clean without angle brackets. -/
def AllClean (v : Value) : Prop :=
  ∀ s, v.HasText s → findViolation s.withoutBrackets = none

/-- The reader gives only clean texts for screened ones. -/
def GivesClean (value : Text → Except Failure Value) : Prop :=
  ∀ t v, Screened t → value t = .ok v → AllClean v

variable {value : Text → Except Failure Value} {now : Time.Moment}

theorem allClean_text (clean : findViolation t.withoutBrackets = none) : AllClean (.text t) := by
  intro s has
  cases has
  exact clean

/-- A value without texts. -/
theorem allClean_of_not_hasText (none : ∀ s, ¬v.HasText s) : AllClean v :=
  fun s has => (none s has).elim

theorem allClean_dictOf {entries : Table Value} (clean : ∀ entry ∈ entries, AllClean entry.2) :
    AllClean (dictOf entries) := by
  rintro s (_ | ⟨listed, has⟩)
  obtain ⟨entry, inside, rfl⟩ := List.mem_map.mp listed
  exact clean entry inside s has

theorem allClean_of_readLoosely (gives : GivesClean value) (screened : Screened t)
    (read : readLoosely value t = .ok v) : AllClean v := by
  unfold readLoosely at read
  split at read
  · rename_i entries
    cases read
    refine allClean_dictOf (forall_readEntries (List.forall_mem_nil _) ?_ entries)
    intro piece listed key text v entry read
    have part := ((infix_of_entry entry).trans (infix_of_mem_split listed)).trans
      (infix_objectContent t)
    exact gives text v (screened.mono part) read
  · cases read

/-- An object is decoded to a dictionary, whose texts are clean and have no angle brackets. -/
theorem clean_of_readObject (gives : GivesClean value) (screened : Screened t)
    (read : readObject value t = .ok v) :
    (∃ entries, v = .dict entries) ∧
      ∀ s, v.HasText s → findViolation s = none ∧ s.withoutBrackets = s := by
  have cleaned {entries : List (Value × Value)} (clean : AllClean (.dict entries)) (s : Text)
      (has : (Value.dict entries).sanitize.HasText s) :
      findViolation s = none ∧ s.withoutBrackets = s := by
    have sanitized : (Value.dict entries).sanitize = (Value.dict entries).sanitizeItem := by
      rw [Value.sanitize, Value.sanitizeItem]
    rw [sanitized] at has
    obtain ⟨s', has', rfl⟩ := hasText_of_sanitizeItem has
    exact ⟨clean s' has', withoutBrackets_twice s'⟩
  unfold readObject at read
  split at read
  · rename_i members accepted
    cases read
    have whole : Value.ofJson (.record members) = .dict (Value.ofMembers members) := by
      rw [Value.ofJson]
    rw [whole]
    refine ⟨⟨_, rfl⟩, cleaned fun s has => ?_⟩
    rw [← whole] at has
    exact screened.clean_of_spelled
      ((Json.read_eq_ok_iff.mp accepted).spelled (hasText_of_ofJson has))
  · split at read
    · rename_i loose
      cases read
      have clean := allClean_of_readLoosely gives screened loose
      unfold readLoosely at loose
      split at loose
      · cases loose
        exact ⟨⟨_, rfl⟩, cleaned clean⟩
      · cases loose
    · cases read

theorem GivesClean.readWith (gives : GivesClean value) : GivesClean (readWith value now) := by
  intro t v screened read
  unfold Literal.readWith at read
  split at read
  · rename_i keyword
    cases read
    refine allClean_of_not_hasText fun s has => ?_
    simp only [keywords, Table.find?] at keyword
    split_ifs at keyword <;> cases keyword <;> cases has
  split at read
  · rename_i quoted
    cases read
    exact allClean_text (screened.clean (traced_of_quotedContent? quoted))
  split at read
  · refine allClean_of_not_hasText fun s has => ?_
    unfold ofNumeral at read
    split at read
    · cases read
      cases has
    · split at read <;> cases read
      cases has
  split at read
  · split at read <;> cases read
    refine allClean_of_not_hasText fun s has => ?_
    cases has
  split at read
  · intro s has
    obtain ⟨clean, same⟩ := (clean_of_readObject gives screened read).2 s has
    rwa [same]
  · cases read
    refine allClean_of_not_hasText fun s has => ?_
    unfold readArray at has
    split at has <;> cases has
  · cases read
    exact allClean_text screened.bare

theorem givesClean_readNested (now : Time.Moment) (depth : Nat) :
    GivesClean (readNested now depth) := by
  induction depth with
  | zero =>
    intro t v screened read
    cases read
    exact allClean_text screened.bare
  | succ depth ih => exact ih.readWith

/-- No denied pattern matches a text of an object that is decoded from a screened text. -/
theorem read_object_clean (now : Time.Moment) (raw : Text) (v : Value)
    (opened : raw.head? = some (.char '\x7b')) (screened : Screened raw)
    (decoded : read now raw = .ok v) :
    (∃ entries, v = .dict entries) ∧ ∀ s, v.HasText s → findViolation s = none := by
  cases raw with
  | nil => cases opened
  | cons c t =>
    cases opened
    rw [read, readNested, readWith_brace] at decoded
    obtain ⟨dict, clean⟩ := clean_of_readObject (givesClean_readNested now _) screened decoded
    exact ⟨dict, fun s has => (clean s has).1⟩

/-- An object with brackets in a text, and one more inside of it. -/
def meeting : Text :=
  "\x7btitle: \"<b>plan</b>\", place: \x7broom: \"a\\/b\"\x7d\x7d".toText

theorem read_meeting_clean :
    ∃ v, read ⟨0, none, by decide⟩ meeting = .ok v ∧ Screened meeting ∧
      ((∃ entries, v = .dict entries) ∧ ∀ s, v.HasText s → findViolation s = none) := by
  have tried : asJson meeting =
      "\x7b\"title\": \"<b>plan</b>\", \"place\": \x7b\"room\": \"a\\/b\"\x7d\x7d".toText := rfl
  have accepted : Json.read (asJson meeting) =
      .ok (.record [("title".toText, .text "<b>plan</b>".toText),
        ("place".toText, .record [("room".toText, .text "a/b".toText)])]) := by
    rw [tried]
    cbv
  have screened : Screened meeting :=
    screened_of_hasPlainEscapes (by decide) (by cbv)
  have decoded := read_of_json ⟨0, none, by decide⟩ accepted
  exact ⟨_, decoded, screened, read_object_clean _ meeting _ rfl screened decoded⟩

/-- A clean text whose text is denied without its bracket, and one whose text is denied once its
escape is replaced. -/
theorem read_denied :
    (findViolation "\x7ba: \"ev<al(\"\x7d".toText = none ∧
      read ⟨0, none, by decide⟩ "\x7ba: \"ev<al(\"\x7d".toText =
        .ok (.dict [(.text "a".toText, .text "eval(".toText)])) ∧
    (findViolation "\x7ba: \"\\u0065val(\"\x7d".toText = none ∧
      read ⟨0, none, by decide⟩ "\x7ba: \"\\u0065val(\"\x7d".toText =
        .ok (.dict [(.text "a".toText, .text "eval(".toText)])) ∧
    findViolation "eval(".toText ≠ none := by
  have bracket : asJson "\x7ba: \"ev<al(\"\x7d".toText = "\x7b\"a\": \"ev<al(\"\x7d".toText := rfl
  have escape : asJson "\x7ba: \"\\u0065val(\"\x7d".toText =
      "\x7b\"a\": \"\\u0065val(\"\x7d".toText := rfl
  have accepted : Json.read (asJson "\x7ba: \"ev<al(\"\x7d".toText) =
      .ok (.record [("a".toText, .text "ev<al(".toText)]) := by
    rw [bracket]
    cbv
  have accepted' : Json.read (asJson "\x7ba: \"\\u0065val(\"\x7d".toText) =
      .ok (.record [("a".toText, .text "eval(".toText)]) := by
    rw [escape]
    cbv
  refine ⟨⟨by cbv, ?_⟩, ⟨by cbv, ?_⟩, by cbv; exact Option.some_ne_none _⟩
  · exact read_of_json _ accepted
  · exact read_of_json _ accepted'

end Literal

end GuardedConsole
