import GuardedConsole.Proofs.Argument.Cutting
import GuardedConsole.Proofs.Json.Escapes
import GuardedConsole.Proofs.Literal.Rewriting
import GuardedConsole.Proofs.Value.Data
import GuardedConsole.Proofs.World.Printing

/-!
# Printed lists typed back

Lists of data are printed as JSON, and typed back they are arguments. Every apostrophe is read as a
quote, and commas are found without regard for how JSON escapes a backslash. So the lists are read
back exactly if their texts have no apostrophe, end outside quoted texts and brackets, and have no
comma there: `printed_lists_read_back_iff`.
-/

namespace GuardedConsole

open Text

namespace Literal

open Time Argument Scan Json

variable {now : Moment} {c : CodePoint} {t after rest spaces p : Text} {ps texts : List Text}
  {s : Scan} {items : List Json} {lists : List (List Json)}

/-! ### Straight quotes -/

theorem length_straightQuotes (t : Text) : (straightQuotes t).length = t.length :=
  List.length_map _

theorem not_mem_straightQuotes : .char '\'' ∉ straightQuotes t := by
  intro member
  obtain ⟨c, _, same⟩ := List.mem_map.mp member
  split at same
  · cases same
  · rename_i other
    exact other same

theorem straightQuote_ne {d : CodePoint} (other : c ≠ d) (noQuote : d ≠ '"') : straightQuote c ≠ d := by
  unfold straightQuote
  split
  · exact noQuote.symm
  · exact other

theorem wholeEscapes_straight (whole : WholeEscapes t) : WholeEscapes (straightQuotes t) := by
  induction whole with
  | nil => exact .nil
  | plain other _ ih => exact .plain (straightQuote_ne other (by decide)) ih
  | escape other _ ih => exact .escape (straightQuote_ne other (by decide)) ih
  | @unit w x y z t apart other _ ih =>
    have kept : straightQuotes [.char '\\', .char 'u', w, x, y, z] =
        [.char '\\', .char 'u', w, x, y, z] := straightQuotes_eq_self (by simpa using apart)
    have split : straightQuotes (.char '\\' :: .char 'u' :: w :: x :: y :: z :: t) =
        [.char '\\', .char 'u', w, x, y, z] ++ straightQuotes t := by
      rw [← kept, ← straightQuotes_append]
      rfl
    rw [split]
    exact .unit apart other ih

theorem isBlank_of_space (space : isSpace c = true) : isBlank c = true := by
  simp only [isSpace, Bool.or_eq_true, beq_iff_eq] at space
  rcases space with ((rfl | rfl) | rfl) | rfl <;> rfl

theorem not_space_of_last (trimmed : t.trim = t) (last : (straightQuotes t).getLast? = some c) :
    isSpace c = false := by
  obtain ⟨d, ended, same⟩ := Option.map_eq_some_iff.mp (List.getLast?_map.symm.trans last)
  have firm : isBlank d = false := not_blank_of_trim (t := t) (by rw [trimmed, ended])
  rw [← same]
  split
  · rfl
  · cases space : isSpace d with
    | false => rfl
    | true =>
      rw [isBlank_of_space space] at firm
      cases firm

/-! ### Arrays -/

theorem read_array (now : Moment) (t : Text) :
    read now (.char '[' :: t) = .ok (readArray (.char '[' :: t)) := by
  have noKeyword : keywords.find? (.char '[' :: t) = none := rfl
  have noQuotes : quotedContent? (.char '[' :: t) = none := rfl
  have noNumeral : Number.Numeral.read? (.char '[' :: t) = none := rfl
  have noDate : dateExpression? (.char '[' :: t) = none := rfl
  unfold read readNested readWith
  rw [noKeyword, noQuotes, noNumeral, noDate]
  rfl

theorem readArguments_array (alone : split (.char '[' :: t) = [.char '[' :: t]) :
    readArguments now (.char '[' :: t) = .ok [readArray (.char '[' :: t)] := by
  rw [readArguments, alone, readEach, read_array]
  rfl

theorem exists_inner (items : List Json) :
    ∃ inner, write (.list items) = .char '[' :: (inner ++ [.char ']']) := by
  cases items with
  | nil => exact ⟨[], rfl⟩
  | cons item items =>
    refine ⟨newLine 1 ++ writeAt 1 item ++ writeItems 1 items ++ newLine 0, ?_⟩
    rw [write, writeAt]
    simp

theorem trim_written (items : List Json) : trim (write (.list items)) = write (.list items) := by
  obtain ⟨inner, shown⟩ := exists_inner items
  rw [shown]
  apply trim_eq_self
  · rintro c ⟨rfl⟩
    rfl
  · intro c last
    rw [← List.cons_append, List.getLast?_concat] at last
    cases last
    rfl

theorem wholeEscapes_written (readable : (Json.list items).Readable) :
    WholeEscapes (write (.list items)) :=
  composes_wholeEscapes.written readable readable.allTexts 0

/-- The text is read as the list. -/
def IsReadAs (now : Moment) (t : Text) (items : List Json) : Prop :=
  read now t = .ok (.list (Value.ofItems items))

theorem isReadAs_written (readable : (Json.list items).Readable)
    (clear : .char '\'' ∉ write (.list items)) : IsReadAs now (write (.list items)) items := by
  obtain ⟨inner, shown⟩ := exists_inner items
  have back : Json.read (write (.list items)) = .ok (.list items) := by
    rw [← List.append_nil (write (.list items))]
    exact read_write readable (List.forall_mem_nil _)
  rw [← straightQuotes_eq_self clear] at back
  rw [shown] at back ⊢
  rw [IsReadAs, read_array, readArray, back]

theorem stands_of_readArray (filled : items ≠ [])
    (back : readArray t = .list (Value.ofItems items)) : Stands (straightQuotes t) (.list items) := by
  unfold readArray at back
  split at back
  · rename_i found
    rw [← Value.ofItems_injective (Value.list.inj back)]
    exact read_eq_ok_iff.mp found
  · cases items with
    | nil => exact (filled rfl).elim
    | cons item items => cases back

/-! ### Pieces -/

theorem not_continues_of_blank (blank : isBlank c = true) : continuesNumber c = false := by
  by_contra continues
  simp only [continuesNumber, Bool.not_eq_false, Bool.or_eq_true, beq_iff_eq] at continues
  rcases continues with ((digit | rfl) | rfl) | rfl
  · rw [Number.not_blank_of_digit digit] at blank
    cases blank
  · cases blank
  · cases blank
  · cases blank

theorem stops_straightQuotes (next : ∀ c, t.head? = some c → c = ',' ∨ isBlank c = true) :
    Stops (straightQuotes t) := by
  cases t with
  | nil => rfl
  | cons c t =>
    show continuesNumber (straightQuote c) = false
    unfold straightQuote
    split
    · rfl
    · rcases next c rfl with rfl | blank
      · rfl
      · exact not_continues_of_blank blank

/-- A front of the text of a list and more that is read as the list is the text of the list. -/
theorem eq_written (filled : items ≠ []) (readable : (Json.list items).Readable)
    (whole : WholeEscapes (write (.list items) ++ after)) (trimmed : t.trim = t)
    (same : write (.list items) ++ after = t ++ rest)
    (next : ∀ c, after.head? = some c → c = ',' ∨ isBlank c = true)
    (next' : ∀ c, rest.head? = some c → c = ',' ∨ isBlank c = true)
    (back : readArray t = .list (Value.ofItems items)) :
    t = write (.list items) ∧ .char '\'' ∉ write (.list items) := by
  have straight := congrArg straightQuotes same
  rw [straightQuotes_append, straightQuotes_append] at straight
  have stands := stands_of_readArray filled back
  have escapes := wholeEscapes_straight whole
  rw [straightQuotes_append, straight] at escapes
  -- what is read has no apostrophes, so what was written has none
  obtain ⟨_, all⟩ := stands.behind not_mem_straightQuotes escapes
  have clear : .char '\'' ∉ write (.list items) := composes_noApostrophe.written readable all 0
  rw [straightQuotes_eq_self clear] at straight
  have stands' : Stands (write (.list items)) (.list items) := readable.stands 0
  have text : write (.list items) = straightQuotes t := by
    apply stands'.text_unique stands straight (stops_straightQuotes next)
      (stops_straightQuotes next')
    · rw [← straightQuotes_eq_self clear]
      exact fun c => not_space_of_last (trim_written items)
    · exact fun c => not_space_of_last trimmed
  have length := congrArg List.length text
  rw [length_straightQuotes] at length
  exact ⟨(List.append_inj same length).1.symm, clear⟩

/-- Behind blanks, the text of the empty list is a piece whatever it is read as. -/
theorem trim_piece_of_nil (top : s.AtTop) (blank : ∀ c ∈ spaces, isBlank c = true)
    (next : ∀ c, after.head? = some c → c = ',')
    (cut : pieces s (spaces ++ (write (.list []) ++ after)) = p :: ps) :
    p.trim = write (.list []) := by
  have calm : ∀ c ∈ spaces, isCalm c = true := fun c member => isCalm_of_blank (blank c member)
  have brackets : Level 1 (write (.list [])) :=
    composes_level.list [] (composes_level.joined [] (List.forall_mem_nil _))
  have level : Level 1 (spaces ++ write (.list [])) := (level_of_calm calm).append brackets
  obtain ⟨_, closed⟩ := pieces_of_closed level.closed level.uncut top next
  rw [← List.append_assoc, closed] at cut
  obtain ⟨rfl, _⟩ := List.cons.inj cut
  rw [trim_append_of_blank blank, trim_written]

/-- A first piece that is read as the list whose text it begins with is this text. -/
theorem piece_of_list (top : s.AtTop) (blank : ∀ c ∈ spaces, isBlank c = true)
    (readable : (Json.list items).Readable) (whole : WholeEscapes (write (.list items) ++ after))
    (next : ∀ c, after.head? = some c → c = ',')
    (cut : pieces s (spaces ++ (write (.list items) ++ after)) = p :: ps)
    (back : IsReadAs now p.trim items) :
    p.trim = write (.list items) ∧ .char '\'' ∉ write (.list items) := by
  by_cases empty : items = []
  · subst empty
    exact ⟨trim_piece_of_nil top blank next cut, by decide⟩
  obtain ⟨inner, shown⟩ := exists_inner items
  have filled : p.trim ≠ [] := by
    intro nothing
    rw [IsReadAs, nothing] at back
    cases back
  have firm : ∀ c, (write (.list items) ++ after).head? = some c → isBlank c = false := by
    rw [shown]
    rintro c ⟨rfl⟩
    rfl
  obtain ⟨rest, same, next'⟩ := exists_rest_of_trim blank firm cut filled
  obtain ⟨d, q, trimmed⟩ := List.exists_cons_of_ne_nil filled
  obtain rfl : d = '[' := by
    rw [shown, trimmed] at same
    exact (List.cons.inj same).1.symm
  have array : readArray p.trim = .list (Value.ofItems items) := by
    rw [IsReadAs, trimmed, read_array] at back
    rw [trimmed]
    exact Except.ok.inj back
  exact eq_written empty readable whole (trim_trim p) same (fun c head => .inl (next c head)) next'
    array

/-! ### Several lists -/

/-- The texts in which the lists are written. -/
def writtenLists (lists : List (List Json)) : List Text :=
  lists.map fun items => write (.list items)

/-- The written lists as arguments. -/
def joined (lists : List (List Json)) : Text :=
  joinWith ", ".toText (writtenLists lists)

theorem joined_singleton (items : List Json) : joined [items] = write (.list items) ++ [] :=
  (List.append_nil _).symm

theorem joined_cons (items next : List Json) (lists : List (List Json)) :
    joined (items :: next :: lists) =
      write (.list items) ++ .char ',' :: ([.char ' '] ++ joined (next :: lists)) := by
  show write (.list items) ++ ", ".toText ++ joined (next :: lists) = _
  rw [List.append_assoc]
  rfl

theorem wholeEscapes_joined (readable : ∀ items ∈ lists, (Json.list items).Readable) :
    WholeEscapes (joined lists) := by
  apply WholeEscapes.joined (by decide)
  intro t listed
  obtain ⟨items, inside, rfl⟩ := List.mem_map.mp listed
  exact wholeEscapes_written (readable items inside)

/-- Pieces of joined lists that are read as these lists are the texts of the lists. -/
theorem pieces_of_lists {tail : List Text} (top : s.AtTop) (blank : ∀ c ∈ spaces, isBlank c = true)
    (readable : ∀ items ∈ lists, (Json.list items).Readable)
    (cut : (pieces s (spaces ++ joined lists)).map trim = texts ++ tail)
    (back : List.Forall₂ (IsReadAs now) texts lists) :
    texts = writtenLists lists ∧ ∀ items ∈ lists, .char '\'' ∉ write (.list items) := by
  induction lists generalizing s spaces texts with
  | nil =>
    rw [List.forall₂_nil_right_iff] at back
    exact ⟨back, List.forall_mem_nil _⟩
  | cons items lists ih =>
    obtain ⟨here, elsewhere⟩ := List.forall_mem_cons.mp readable
    have escapes := wholeEscapes_joined readable
    obtain ⟨t, rest, first, others, rfl⟩ := List.forall₂_cons_right_iff.mp back
    obtain ⟨p, ps, found⟩ := List.exists_cons_of_ne_nil (pieces_ne_nil s
      (spaces ++ joined (items :: lists)))
    rw [found, List.map_cons, List.cons_append] at cut
    obtain ⟨rfl, behind⟩ := List.cons.inj cut
    cases lists with
    | nil =>
      rw [joined_singleton] at found escapes
      obtain ⟨same, clear⟩ := piece_of_list top blank here escapes (fun c none => nomatch none) found
        first
      rw [same, List.forall₂_nil_right_iff.mp others]
      exact ⟨rfl, List.forall_mem_singleton.mpr clear⟩
    | cons next lists =>
      rw [joined_cons] at found escapes
      obtain ⟨same, clear⟩ := piece_of_list top blank here escapes (by rintro c ⟨rfl⟩; rfl) found first
      have more : ps ≠ [] := by
        rintro rfl
        obtain ⟨u, us, _, _, rfl⟩ := List.forall₂_cons_right_iff.mp others
        cases behind
      obtain ⟨_, s', top', rfl⟩ := pieces_behind top blank found more same
      obtain ⟨texts, all⟩ := ih top' (by decide) elsewhere behind others
      rw [same, texts]
      exact ⟨rfl, List.forall_mem_cons.mpr ⟨clear, all⟩⟩

theorem readArguments_eq_lists_iff :
    readArguments now t = .ok (lists.map fun items => .list (Value.ofItems items)) ↔
      List.Forall₂ (IsReadAs now) (split t) lists := by
  rw [readArguments, readEach_eq_ok_iff, List.forall₂_map_right_iff]
  rfl

/-- The lists are read back exactly if no text has an apostrophe and splitting gives the texts again.
-/
theorem readArguments_joined_iff (readable : ∀ items ∈ lists, (Json.list items).Readable) :
    readArguments now (joined lists) = .ok (lists.map fun items => .list (Value.ofItems items)) ↔
      (∀ t ∈ writtenLists lists, .char '\'' ∉ t) ∧ split (joined lists) = writtenLists lists := by
  rw [readArguments_eq_lists_iff, writtenLists, List.forall_mem_map]
  constructor
  · intro back
    obtain ⟨tail, cut⟩ := exists_tail_of_split (joined lists)
    have nothing : ∀ c ∈ ([] : Text), isBlank c = true := List.forall_mem_nil _
    obtain ⟨texts, clear⟩ := pieces_of_lists atTop_start nothing readable cut back
    exact ⟨clear, texts⟩
  · rintro ⟨clear, cut⟩
    rw [cut, List.forall₂_map_left_iff, List.forall₂_same]
    exact fun items listed => isReadAs_written (readable items listed) (clear items listed)

theorem split_joined_iff (lists : List (List Json)) :
    split (joined lists) = writtenLists lists ↔
      (∀ t ∈ (writtenLists lists).dropLast, Outside 0 t) ∧
        ∀ t ∈ writtenLists lists, ∀ before after,
          t = before ++ .char ',' :: after → ¬Outside 0 before := by
  have trimmed : ∀ t ∈ writtenLists lists, t.trim = t := by
    intro t listed
    obtain ⟨items, _, rfl⟩ := List.mem_map.mp listed
    exact trim_written items
  have last : (writtenLists lists).getLast? ≠ some [] := by
    intro empty
    obtain ⟨items, _, shown⟩ := List.mem_map.mp (List.mem_of_getLast? empty)
    obtain ⟨inner, written⟩ := exists_inner items
    rw [written] at shown
    cases shown
  have separated := split_joinWith_iff (writtenLists lists)
  exact separated.trans ⟨fun all => all.2.2, fun ends => ⟨trimmed, last, ends⟩⟩

/-- Nothing of the text is lost when it is printed and typed back: its halves are not joined, none of
its characters is an apostrophe, and no backslash stands before the closing quote. -/
structure Harmless (t : Text) : Prop where
  whole : t.IsWhole
  noApostrophe : .char '\'' ∉ t
  noBackslash : t.getLast? ≠ some (.char '\\')

theorem written_of_harmless (readable : (Json.list items).Readable)
    (harmless : (Json.list items).AllTexts Harmless) :
    .char '\'' ∉ write (.list items) ∧ Closed (write (.list items)) ∧
      Uncut (write (.list items)) := by
  have clear : .char '\'' ∉ write (.list items) :=
    composes_noApostrophe.written readable (harmless.mono fun _ => Harmless.noApostrophe) 0
  have level : Level 1 (write (.list items)) :=
    composes_level.written readable (harmless.mono fun _ text => ⟨text.whole, text.noBackslash⟩) 0
  exact ⟨clear, level.closed, level.uncut⟩

theorem readArguments_of_harmless (readable : ∀ items ∈ lists, (Json.list items).Readable)
    (harmless : ∀ items ∈ lists, (Json.list items).AllTexts Harmless) :
    readArguments now (joined lists) = .ok (lists.map fun items => .list (Value.ofItems items)) := by
  have each : ∀ t ∈ writtenLists lists, .char '\'' ∉ t ∧ Closed t ∧ Uncut t := by
    intro t listed
    obtain ⟨items, inside, rfl⟩ := List.mem_map.mp listed
    exact written_of_harmless (readable items inside) (harmless items inside)
  rw [readArguments_joined_iff readable, split_joined_iff]
  simp only [outside_zero_iff]
  exact ⟨fun t listed => (each t listed).1,
    fun t listed => (each t (List.dropLast_subset _ listed)).2.1, fun t listed => (each t listed).2.2⟩

/-- Lists of data are printed if there is room on the stack for them, and typed back next to each other
they are read as the same lists exactly if their texts have no apostrophe, all but the last end outside
quoted texts and brackets, and none has a comma there. So they are if no text in the data has an
apostrophe or ends with a backslash. -/
theorem printed_lists_read_back_iff (now : Moment) (lists : List (List Value))
    (printable : ∀ items ∈ lists, ∀ item ∈ items, item.IsPrintable IsWhole) :
    ∃ texts room,
      (∀ w : World,
        (room ≤ w.room → (lists.map Value.list).map w.render = texts.map .returned) ∧
        (w.room < room → ∃ items ∈ lists, w.render (.list items) = .failed Value.tooDeep)) ∧
      (readArguments now (joinWith ", ".toText texts) = .ok (lists.map Value.list) ↔
        (∀ t ∈ texts, .char '\'' ∉ t) ∧ (∀ t ∈ texts.dropLast, Outside 0 t) ∧
          ∀ t ∈ texts, ∀ before after, t = before ++ .char ',' :: after → ¬Outside 0 before) ∧
      ((∀ items ∈ lists, ∀ item ∈ items, item.IsPrintable Harmless) →
        readArguments now (joinWith ", ".toText texts) = .ok (lists.map Value.list)) := by
  have documented : ∀ items ∈ lists, ∃ documents, Value.ofItems documents = items ∧
      (Json.list documents).Readable := by
    intro items listed
    obtain ⟨documents, same, readable, _⟩ :=
      Value.IsPrintable.exists_items (printable items listed) fun _ whole => whole
    exact ⟨documents, same, readable⟩
  obtain ⟨documents, rfl, readable⟩ := Value.exists_list documented
  obtain ⟨room, rendered⟩ := World.render_lists readable
  refine ⟨writtenLists documents, room, fun w => ⟨fun fits => ?_, fun small => ?_⟩, ?_,
    fun harmless => ?_⟩
  · rw [writtenLists, List.map_map, List.map_map, List.map_map]
    exact List.map_congr_left ((rendered w).1 fits)
  · obtain ⟨items, listed, failed⟩ := (rendered w).2 small
    exact ⟨_, List.mem_map_of_mem listed, failed⟩
  · rw [List.map_map, ← split_joined_iff]
    exact readArguments_joined_iff readable
  · rw [List.map_map]
    apply readArguments_of_harmless readable
    intro items listed
    have each := harmless _ (List.mem_map_of_mem listed)
    obtain ⟨items', same, _, all⟩ := Value.IsPrintable.exists_items each fun _ => Harmless.whole
    rwa [Value.ofItems_injective same] at all

/-- Two lists with a quote, a comma, a number, a dictionary and an empty list. -/
def rows : List (List Value) :=
  [[.text "a\"b, c".toText, .int (-3)], [.dict [(.text "k".toText, .null)], .list []]]

theorem printed_rows_read_back :
    readArguments ⟨0, none, by decide⟩
      "[\n  \"a\\\"b, c\",\n  -3\n], [\n  \x7b\n    \"k\": null\n  \x7d,\n  []\n]".toText =
        .ok (rows.map .list) := by
  have printable {p : Text → Prop} (text : p "a\"b, c".toText) (key : p "k".toText) :
      ∀ items ∈ rows, ∀ item ∈ items, item.IsPrintable p := by
    have short : (-3 : Int).natAbs < 10 ^ Number.maxIntegerDigits :=
      Nat.lt_of_lt_of_le (by decide : 3 < 10 ^ 1) (Nat.pow_le_pow_right (by decide) (by decide))
    have number : (Value.int (-3)).IsPrintable p := .int short
    have entry : (Value.dict [(.text "k".toText, .null)]).IsPrintable p :=
      @Value.IsPrintable.dict p [("k".toText, .null)] (by decide)
        (List.forall_mem_singleton.mpr key) (List.forall_mem_singleton.mpr .null)
    have nothing : (Value.list []).IsPrintable p := .list (List.forall_mem_nil _)
    have texted : (Value.text "a\"b, c".toText).IsPrintable p := .text text
    simp [rows, number, entry, nothing, texted]
  have text : "a\"b, c".toText.IsPlain := by decide
  have key : "k".toText.IsPlain := by decide
  obtain ⟨texts, room, rendered, _, back⟩ :=
    printed_lists_read_back_iff ⟨0, none, by decide⟩ rows (printable text.isWhole key.isWhole)
  have harmless := printable (p := Harmless) ⟨text.isWhole, by decide, by decide⟩
    ⟨key.isWhole, by decide, by decide⟩
  have printed : (rows.map Value.list).map (World.fresh ⟨0, none, by decide⟩).render =
      ["[\n  \"a\\\"b, c\",\n  -3\n]".toText,
        "[\n  \x7b\n    \"k\": null\n  \x7d,\n  []\n]".toText].map .returned := by
    decide +kernel
  have fits : room ≤ (World.fresh ⟨0, none, by decide⟩).room := by
    by_contra small
    obtain ⟨items, listed, failed⟩ := (rendered _).2 (Nat.lt_of_not_le small)
    have shown := List.mem_map_of_mem (f := (World.fresh ⟨0, none, by decide⟩).render)
      (List.mem_map_of_mem (f := Value.list) listed)
    rw [printed, failed] at shown
    simp at shown
  have shown := printed.symm.trans ((rendered _).1 fits)
  rw [← List.map_injective_iff.mpr (fun _ _ => Outcome.returned.inj) shown] at back
  exact back harmless

/-- A list whose text has an apostrophe is read as an empty one, and so are two lists of which the first
ends with a backslash. -/
theorem printed_lists_lost :
    (∃ t, (World.fresh ⟨0, none, by decide⟩).render (.list [.text "it's".toText]) = .returned t ∧
      readArguments ⟨0, none, by decide⟩ t = .ok [.list []]) ∧
    (∃ t u, (World.fresh ⟨0, none, by decide⟩).render (.list [.text "a\\".toText]) = .returned t ∧
      (World.fresh ⟨0, none, by decide⟩).render (.list [.text "b".toText]) = .returned u ∧
      readArguments ⟨0, none, by decide⟩ (joinWith ", ".toText [t, u]) = .ok [.list []]) ∧
    [Value.list []] ≠ [.list [.text "it's".toText]] := by
  have apostrophe : readArray "[\n  \"it's\"\n]".toText = .list [] := by cbv
  have merged : readArray "[\n  \"a\\\\\"\n], [\n  \"b\"\n]".toText = .list [] := by cbv
  refine ⟨⟨"[\n  \"it's\"\n]".toText, by cbv, ?_⟩,
    ⟨"[\n  \"a\\\\\"\n]".toText, "[\n  \"b\"\n]".toText, by cbv, by cbv, ?_⟩, by simp⟩
  · rw [← apostrophe]
    exact readArguments_array (by decide)
  · rw [← merged]
    exact readArguments_array (by decide)

end Literal

end GuardedConsole
