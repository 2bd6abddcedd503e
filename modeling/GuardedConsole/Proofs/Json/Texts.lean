import GuardedConsole.Proofs.Json.Grammar

/-!
# Texts of a document

Every text of a document is what some part of its source stands for between quotes:
`Stands.spelled`.
-/

namespace GuardedConsole.Json

open Text

variable {s t u rest : Text} {j : Json}

/-- The text is one of the document, at any depth. -/
inductive HasText (s : Text) : Json → Prop where
  | here : HasText s (.text s)
  | item {item : Json} {items : List Json} : item ∈ items → HasText s item →
    HasText s (.list items)
  | member {member : Text × Json} {members : List (Text × Json)} : member ∈ members →
    HasText s member.2 → HasText s (.record members)

/-- Some part of the source stands for the text. -/
def Spelled (s t : Text) : Prop :=
  ∃ body, body <:+: t ∧ Denotes body s

theorem Spelled.mono (spelled : Spelled s u) (part : u <:+: t) : Spelled s t := by
  obtain ⟨body, inside, denotes⟩ := spelled
  exact ⟨body, inside.trans part, denotes⟩

theorem not_hasText_readNumber (read : readNumber t = .ok (j, rest)) : ¬HasText s j := by
  unfold readNumber at read
  dsimp only at read
  split at read
  · cases read
  · split at read
    · split at read
      · cases read
        intro has
        cases has
      · cases read
    · cases read
      intro has
      cases has

theorem not_hasText_readAtom (read : readAtom t = .ok (j, rest)) : ¬HasText s j := by
  unfold readAtom at read
  split at read
  · rename_i word value found
    cases read
    have plain : ∀ entry ∈ words, ¬HasText s entry.2 := by
      intro entry listed
      simp only [words, List.mem_cons, List.not_mem_nil, or_false] at listed
      rcases listed with rfl | rfl | rfl | rfl | rfl | rfl <;> (intro has; cases has)
    exact plain _ (List.mem_of_find?_eq_some found)
  · exact not_hasText_readNumber read

/-- A text of a document that the source stands for is spelled in the source. -/
theorem Stands.spelled (stands : Stands t j) (has : HasText s j) : Spelled s t := by
  induction stands with
  | atom read => exact (not_hasText_readAtom read has).elim
  | @text body _ denotes =>
    cases has
    exact ⟨body, ⟨[.char '"'], [.char '"'], rfl⟩, denotes⟩
  | noItems _ =>
    cases has with
    | item listed _ => cases listed
  | @list parts _ _ ih =>
    cases has with
    | item listed has =>
      obtain ⟨part, inside, rfl⟩ := List.mem_map.mp listed
      have within := infix_joinWith [.char ','] (List.mem_map_of_mem (f := Prod.fst) inside)
      exact (ih part inside has).mono (within.trans ⟨[.char '['], [.char ']'], rfl⟩)
  | noMembers _ =>
    cases has with
    | member listed _ => cases listed
  | @record members _ _ ih =>
    cases has with
    | member listed has =>
      rcases Table.mem_of_putAll listed with none | inside
      · cases none
      · obtain ⟨m, among, rfl⟩ := List.mem_map.mp inside
        have within := infix_joinWith [.char ',']
          (List.mem_map_of_mem (f := MemberText.written) among)
        have part : m.text <:+: m.written :=
          ⟨m.before ++ .char '"' :: (m.body ++ .char '"' :: (m.between ++ [.char ':'])), [],
            by simp [MemberText.written]⟩
        exact (ih m among has).mono ((part.trans within).trans ⟨[.char '\x7b'], [.char '\x7d'], rfl⟩)
  | spaceBefore _ _ ih => exact (ih has).mono (List.suffix_cons _ _).isInfix
  | spaceAfter _ _ ih => exact (ih has).mono (List.prefix_append _ _).isInfix

end GuardedConsole.Json
