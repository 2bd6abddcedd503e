import GuardedConsole.Proofs.Json.Layout
import GuardedConsole.Proofs.World.Rendering

/-!
# Printed data

Data is what JSON documents without doubles stand for (`IsPrintable.exists_document`), and no two of
them stand for the same data (`Value.ofJson_injective`). Such a list is printed as its document:
`World.render_list`.
-/

namespace GuardedConsole

open Text

variable {p : Text → Prop} {v : Value}

/-- The value is made up of nothing, truth values, integers with no more digits than are read, texts,
lists, and dictionaries whose keys are distinct texts. Every text in it, keys too, satisfies `p`. -/
inductive Value.IsPrintable (p : Text → Prop) : Value → Prop where
  | null : IsPrintable p .null
  | bool (b : Bool) : IsPrintable p (.bool b)
  | int {i : Int} : i.natAbs < 10 ^ Number.maxIntegerDigits → IsPrintable p (.int i)
  | text {t : Text} : p t → IsPrintable p (.text t)
  | list {items : List Value} : (∀ item ∈ items, IsPrintable p item) → IsPrintable p (.list items)
  | dict {members : Table Value} : members.names.Nodup → (∀ m ∈ members, p m.1) →
    (∀ m ∈ members, IsPrintable p m.2) → IsPrintable p (.dict (members.map fun m => (.text m.1, m.2)))

namespace Value

/-! ### Data and documents -/

theorem ofItems_eq (items : List Json) : ofItems items = items.map ofJson := by
  induction items with
  | nil => rfl
  | cons item items ih => rw [ofItems, List.map_cons, ih]

theorem ofMembers_eq (members : List (Text × Json)) :
    ofMembers members = members.map fun m => (.text m.1, ofJson m.2) := by
  induction members with
  | nil => rfl
  | cons m members ih =>
    obtain ⟨name, value⟩ := m
    rw [ofMembers, List.map_cons, ih]

mutual

theorem ofJson_injective : ∀ {j j' : Json}, ofJson j = ofJson j' → j = j'
  | .null, j', same => by
    cases j' <;> cases same
    rfl
  | .bool b, j', same => by
    cases j' <;> cases same
    rfl
  | .int i, j', same => by
    cases j' <;> cases same
    rfl
  | .float x, j', same => by
    cases j' <;> cases same
    rfl
  | .text t, j', same => by
    cases j' <;> cases same
    rfl
  | .list items, j', same => by
    cases j' with
    | list items' => rw [ofItems_injective (Value.list.inj same)]
    | _ => cases same
  | .record members, j', same => by
    cases j' with
    | record members' => rw [ofMembers_injective (Value.dict.inj same)]
    | _ => cases same

theorem ofItems_injective : ∀ {items items' : List Json}, ofItems items = ofItems items' →
    items = items'
  | [], [], _ => rfl
  | item :: items, item' :: items', same => by
    obtain ⟨first, others⟩ := List.cons.inj same
    rw [ofJson_injective first, ofItems_injective others]

theorem ofMembers_injective : ∀ {members members' : List (Text × Json)},
    ofMembers members = ofMembers members' → members = members'
  | [], [], _ => rfl
  | (name, value) :: members, (name', value') :: members', same => by
    obtain ⟨first, others⟩ := List.cons.inj same
    obtain ⟨named, valued⟩ := Prod.mk.inj first
    rw [Value.text.inj named, ofJson_injective valued, ofMembers_injective others]

end

theorem exists_list {α β : Type} {xs : List α} {f : β → α} {P : β → Prop}
    (each : ∀ x ∈ xs, ∃ y, f y = x ∧ P y) : ∃ ys : List β, ys.map f = xs ∧ ∀ y ∈ ys, P y := by
  induction xs with
  | nil => exact ⟨[], rfl, List.forall_mem_nil _⟩
  | cons x xs ih =>
    obtain ⟨⟨y, rfl, holds⟩, others⟩ := List.forall_mem_cons.mp each
    obtain ⟨ys, rfl, all⟩ := ih others
    exact ⟨y :: ys, rfl, List.forall_mem_cons.mpr ⟨holds, all⟩⟩

/-- Data whose texts are whole is what some readable document stands for. -/
theorem IsPrintable.exists_document (printable : v.IsPrintable p) (whole : ∀ t, p t → t.IsWhole) :
    ∃ j, ofJson j = v ∧ j.Readable ∧ j.AllTexts p := by
  induction printable with
  | null => exact ⟨.null, rfl, .null, .null⟩
  | bool b => exact ⟨.bool b, rfl, .bool b, .bool b⟩
  | @int i short => exact ⟨.int i, rfl, .int short, .int i⟩
  | @text t holds => exact ⟨.text t, rfl, .text (whole t holds), .text holds⟩
  | list _ ih =>
    obtain ⟨items, rfl, each⟩ := exists_list ih
    refine ⟨.list items, by rw [ofJson, ofItems_eq], .list ?_, .list ?_⟩
    · exact fun item listed => (each item listed).1
    · exact fun item listed => (each item listed).2
  | @dict members distinct names _ ih =>
    have entries : ∀ m ∈ members, ∃ m' : Text × Json, (m'.1, ofJson m'.2) = m ∧
        p m'.1 ∧ m'.2.Readable ∧ m'.2.AllTexts p := by
      intro m listed
      obtain ⟨j, value, readable, all⟩ := ih m listed
      exact ⟨(m.1, j), by rw [value], names m listed, readable, all⟩
    obtain ⟨documents, rfl, each⟩ := exists_list entries
    refine ⟨.record documents, ?_, .record ?_ ?_ ?_, .record ?_ ?_⟩
    · rw [ofJson, ofMembers_eq, List.map_map]
      rfl
    · simpa [Table.names, Function.comp_def] using distinct
    · exact fun m listed => whole _ (each m listed).1
    · exact fun m listed => (each m listed).2.1
    · exact fun m listed => (each m listed).1
    · exact fun m listed => (each m listed).2.2

theorem IsPrintable.exists_items {items : List Value} (printable : ∀ item ∈ items, item.IsPrintable p)
    (whole : ∀ t, p t → t.IsWhole) :
    ∃ documents, ofItems documents = items ∧ (Json.list documents).Readable ∧
      (Json.list documents).AllTexts p := by
  obtain ⟨j, same, readable, all⟩ := (IsPrintable.list printable).exists_document whole
  cases j with
  | list documents => exact ⟨documents, Value.list.inj same, readable, all⟩
  | _ => cases same

end Value

/-! ### Printing -/

namespace Json

variable {j : Json} {items : List Json}

theorem itemsAreWritable_eq (items : List Json) : itemsAreWritable items = items.all isWritable := by
  induction items with
  | nil => rfl
  | cons item items ih => rw [itemsAreWritable, ih, List.all_cons]

theorem membersAreWritable_eq (members : List (Text × Json)) :
    membersAreWritable members = members.all fun m => isWritable m.2 := by
  induction members with
  | nil => rfl
  | cons m members ih => rw [membersAreWritable, ih, List.all_cons]

theorem Readable.isWritable (readable : j.Readable) : j.isWritable = true := by
  induction readable with
  | null | bool _ | text _ => rfl
  | int short => exact Number.isWritable_iff.mpr short
  | list _ ih =>
    rw [Json.isWritable, itemsAreWritable_eq]
    exact List.all_eq_true.mpr ih
  | record _ _ _ ih =>
    rw [Json.isWritable, membersAreWritable_eq]
    exact List.all_eq_true.mpr ih

end Json

namespace World

variable {w : World} {j : Json} {items : List Json}

/-- What a document stands for is unfolded to a tree with that document. -/
theorem exists_unfolds_ofJson (readable : j.Readable) :
    ∃ tree : Tree, (∀ w path, Unfolds w path (.ofJson j) tree) ∧ tree.document = j := by
  induction readable with
  | null => exact ⟨.leaf .null, fun _ _ => .leaf rfl, rfl⟩
  | bool b => exact ⟨.leaf (.bool b), fun _ _ => .leaf rfl, rfl⟩
  | @int i _ => exact ⟨.leaf (.int i), fun _ _ => .leaf rfl, rfl⟩
  | @text t _ => exact ⟨.leaf (.text t), fun _ _ => .leaf rfl, rfl⟩
  | list _ ih =>
    have trees : ∀ item ∈ _, ∃ p : Json × Tree, p.1 = item ∧
        (∀ w path, Unfolds w path (.ofJson p.1) p.2) ∧ p.2.document = p.1 :=
      fun item listed => (ih item listed).imp' (item, ·) fun _ found => ⟨rfl, found⟩
    obtain ⟨parts, rfl, each⟩ := Value.exists_list trees
    refine ⟨.items ((parts.map fun p => (Value.ofJson p.1, p.2)).map Prod.snd),
      fun w path => .sequence ?_ ?_, ?_⟩
    · rw [Value.ofJson, Value.ofItems_eq, List.map_map, List.map_map]
      rfl
    · exact List.forall_mem_map.mpr fun p listed => (each p listed).1 w path
    · rw [Tree.document_items, List.map_map, List.map_map]
      exact congrArg Json.list (List.map_congr_left fun p listed => (each p listed).2)
  | record distinct _ _ ih =>
    have trees : ∀ m ∈ _, ∃ p : (Text × Json) × Tree, p.1 = m ∧
        (∀ w path, Unfolds w path (.ofJson p.1.2) p.2) ∧ p.2.document = p.1.2 :=
      fun m listed => (ih m listed).imp' (m, ·) fun _ found => ⟨rfl, found⟩
    obtain ⟨parts, rfl, each⟩ := Value.exists_list trees
    let shown := parts.map fun p => ((p.1.1, Value.ofJson p.1.2), p.2)
    have whole : Value.ofJson (.record (parts.map Prod.fst)) = dictOf (shown.map Prod.fst) := by
      rw [Value.ofJson, Value.ofMembers_eq, dictOf, List.map_map, List.map_map, List.map_map]
      rfl
    refine ⟨.members (shown.map fun p => (p.1.1, p.2)), fun w path => ?_, ?_⟩
    · rw [whole]
      refine .dict ?_ (List.forall_mem_map.mpr fun p listed => (each p listed).1 w path)
      simpa [shown, Table.names, Function.comp_def] using distinct
    · rw [Tree.document_members, List.map_map, List.map_map]
      refine congrArg Json.record (List.map_congr_left fun p listed => ?_)
      exact Prod.ext rfl (each p listed).2

/-- A list is printed as the document that stands for it, if there is room for it. -/
theorem render_list (readable : (Json.list items).Readable) :
    ∃ room, ∀ w : World, w.render (.list (Value.ofItems items)) =
      if room ≤ w.room then .returned (Json.write (.list items)) else .failed Value.tooDeep := by
  obtain ⟨tree, unfolds, document⟩ := exists_unfolds_ofJson readable
  have printed : (Json.list items).print = .ok (Json.write (.list items)) := if_pos readable.isWritable
  refine ⟨tree.depth, fun w => (render_of_unfolds (unfolds w [])).trans ?_⟩
  rw [document, printed]
  rfl

/-- Some room is enough for lists, and with less one of them cannot be printed. -/
theorem render_lists {lists : List (List Json)}
    (readable : ∀ items ∈ lists, (Json.list items).Readable) :
    ∃ room, ∀ w : World,
      (room ≤ w.room → ∀ items ∈ lists,
        w.render (.list (Value.ofItems items)) = .returned (Json.write (.list items))) ∧
      (w.room < room → ∃ items ∈ lists,
        w.render (.list (Value.ofItems items)) = .failed Value.tooDeep) := by
  induction lists with
  | nil => exact ⟨0, fun w => ⟨fun _ => List.forall_mem_nil _, nofun⟩⟩
  | cons items lists ih =>
    obtain ⟨first, others⟩ := List.forall_mem_cons.mp readable
    obtain ⟨room, one⟩ := render_list first
    obtain ⟨more, rest⟩ := ih others
    refine ⟨max room more, fun w => ⟨fun fits => ?_, fun small => ?_⟩⟩
    · obtain ⟨here, later⟩ := Nat.max_le.mp fits
      exact List.forall_mem_cons.mpr ⟨(one w).trans (if_pos here), (rest w).1 later⟩
    · rcases Nat.lt_or_ge w.room room with here | enough
      · exact ⟨items, List.mem_cons_self, (one w).trans (if_neg (Nat.not_le.mpr here))⟩
      · obtain ⟨other, listed, failed⟩ := (rest w).2 (by omega)
        exact ⟨other, List.mem_cons_of_mem items listed, failed⟩

end World

end GuardedConsole
