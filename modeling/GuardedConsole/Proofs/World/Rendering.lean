import GuardedConsole.Console.Rendering
import GuardedConsole.Proofs.Halting
import GuardedConsole.Proofs.Value.Tables
import GuardedConsole.Proofs.World.Unfolding

/-!
# Documents of trees

The document of a value is that of the tree to which the value is unfolded, if there is room on the stack
for the depth of the tree; otherwise making it fails (`Unfolds.gives`). The calls that are made for it are
recorded, and nothing else in the world changes: this is what `Gives` says of an effect.
-/

namespace GuardedConsole.World

open Value

namespace Tree

mutual

def document : Tree → Json
  | leaf document => document
  | items trees => .list (documents trees)
  | members trees => .record (memberDocuments trees)
  | presented shown => document shown
  | mark _ => circular

def documents : List Tree → List Json
  | [] => []
  | tree :: trees => document tree :: documents trees

def memberDocuments : List (Text × Tree) → List (Text × Json)
  | [] => []
  | (name, tree) :: trees => (name, document tree) :: memberDocuments trees

end

mutual

/-- The number of levels of values inside values. -/
def depth : Tree → Nat
  | leaf _ | mark _ => 1
  | items trees => depths trees + 1
  | members trees => memberDepths trees + 1
  | presented shown => depth shown + 1

def depths : List Tree → Nat
  | [] => 0
  | tree :: trees => max (depth tree) (depths trees)

def memberDepths : List (Text × Tree) → Nat
  | [] => 0
  | (_, tree) :: trees => max (depth tree) (memberDepths trees)

end

theorem document_items (trees : List Tree) :
    (items trees).document = .list (trees.map document) := by
  have each : documents trees = trees.map document := by
    induction trees with
    | nil => rfl
    | cons tree trees ih => rw [documents, ih, List.map_cons]
  rw [document, each]

theorem document_members (trees : List (Text × Tree)) :
    (members trees).document = .record (trees.map fun m => (m.1, m.2.document)) := by
  have each : memberDocuments trees = trees.map fun m => (m.1, m.2.document) := by
    induction trees with
    | nil => rfl
    | cons m trees ih => rw [memberDocuments, ih, List.map_cons]
  rw [document, each]

theorem depth_items_le {trees : List Tree} {room : Nat} :
    (items trees).depth ≤ room + 1 ↔ ∀ tree ∈ trees, tree.depth ≤ room := by
  rw [depth, Nat.add_le_add_iff_right]
  induction trees with
  | nil => simp [depths]
  | cons tree trees ih => rw [depths, Nat.max_le, ih, List.forall_mem_cons]

theorem depth_members_le {trees : List (Text × Tree)} {room : Nat} :
    (members trees).depth ≤ room + 1 ↔ ∀ m ∈ trees, m.2.depth ≤ room := by
  rw [depth, Nat.add_le_add_iff_right]
  induction trees with
  | nil => simp [memberDepths]
  | cons m trees ih => rw [memberDepths, Nat.max_le, ih, List.forall_mem_cons]

theorem depth_pos (tree : Tree) : 0 < tree.depth := by
  cases tree <;> rw [depth] <;> exact Nat.succ_pos _

end Tree

/-! ### Effects that only record calls -/

/-- The effect has the outcome, and changes nothing in the world but the record of calls. -/
def Gives {α : Type} (w : World) (e : Effect World α) (o : Outcome α) : Prop :=
  ∀ calls, ∃ calls', e { w with calls := calls } = (o, { w with calls := calls' })

variable {α β : Type} {w : World} {e : Effect World α} {next : α → Effect World β} {a : α}
  {f : Failure}

theorem gives_pure (w : World) (a : α) : w.Gives (pure a) (.returned a) := fun calls =>
  ⟨calls, rfl⟩

theorem gives_read {look : World → Except Failure α}
    (seeing : ∀ calls, look { w with calls := calls } = .ok a) :
    w.Gives (.read look) (.returned a) := fun calls =>
  ⟨calls, Effect.read_eq_returned_iff.mpr ⟨seeing calls, rfl⟩⟩

theorem Gives.bind {o : Outcome β} (first : w.Gives e (.returned a)) (second : w.Gives (next a) o) :
    w.Gives (e >>= next) o := by
  intro calls
  obtain ⟨calls', ran⟩ := first calls
  rw [Effect.bind_of_returned ran]
  exact second calls'

theorem Gives.bind_failed (first : w.Gives e (.failed f)) : w.Gives (e >>= next) (.failed f) := by
  intro calls
  obtain ⟨calls', ran⟩ := first calls
  have halted : (e { w with calls := calls }).1 = (Halt.failure f).outcome := congrArg Prod.fst ran
  refine ⟨calls', (Effect.bind_of_halted halted).trans ?_⟩
  rw [ran]
  rfl

section Within

variable {c : Prop} [Decidable c] {room : Nat}

theorem Gives.change {change : α → β} (first : w.Gives e (if c then .returned a else .failed f)) :
    w.Gives (e >>= fun a => pure (change a)) (if c then .returned (change a) else .failed f) := by
  by_cases fits : c
  · rw [if_pos fits] at first ⊢
    exact first.bind (gives_pure w _)
  · rw [if_neg fits] at first ⊢
    exact first.bind_failed

theorem gives_mapM {parts : List (α × Tree)} {g : α → Effect World β} {result : α × Tree → β}
    (each : ∀ p ∈ parts,
      w.Gives (g p.1) (if p.2.depth ≤ room then .returned (result p) else .failed tooDeep)) :
    w.Gives ((parts.map Prod.fst).mapM g)
      (if ∀ p ∈ parts, p.2.depth ≤ room then .returned (parts.map result)
        else .failed tooDeep) := by
  induction parts with
  | nil =>
    rw [if_pos (List.forall_mem_nil _)]
    exact gives_pure w _
  | cons p parts ih =>
    obtain ⟨first, others⟩ := List.forall_mem_cons.mp each
    rw [List.map_cons, List.mapM_cons]
    simp only [List.forall_mem_cons]
    by_cases fits : p.2.depth ≤ room
    · rw [if_pos fits] at first
      simp only [fits, true_and]
      exact first.bind (ih others).change
    · rw [if_neg fits] at first
      rw [if_neg fun all => fits all.1]
      exact first.bind_failed

end Within

/-! ### What values show -/

section Opened

variable {seen : List Identity} {v node : Value} {j : Json} {items : List Value} {callee : Value}
  {kind label : Text} {attributes members : Table Value} {room : Nat}

theorem document_of_opened {showing : Showing} (seeing : v.opened w seen = .ok showing) :
    v.document (room + 1) seen w = showing.document (document room (v.around seen)) w :=
  Effect.bind_of_returned (Effect.read_eq_returned_iff.mpr ⟨seeing, rfl⟩)

theorem gives_of_opened {showing : Showing} {o : Outcome Json}
    (seeing : ∀ calls, v.opened { w with calls := calls } seen = .ok showing)
    (shown : w.Gives (showing.document (document room (v.around seen))) o) :
    w.Gives (v.document (room + 1) seen) o := fun calls => by
  rw [document_of_opened (seeing calls)]
  exact shown calls

theorem gives_of_leaf (found : leaf? v = some j) : w.Gives (v.document (room + 1) seen) (.returned j) := by
  have nothing : w.Gives (Showing.document (document room (v.around seen)) (.members []))
      (.returned (.record [])) := gives_pure w _
  cases v with
  | eventStore | undoHistory =>
    cases found
    exact gives_of_opened (fun _ => rfl) nothing
  | _ =>
    cases found
    try exact gives_of_opened (fun _ => rfl) (gives_pure w _)

theorem opened_of_elements (elements : elements? v = some items) (w : World) :
    v.opened w seen = .ok (.items items) := by
  cases v <;> cases elements <;> rfl

theorem around_of_elements (elements : elements? v = some items) (seen : List Identity) :
    v.around seen = seen := by
  cases v <;> first | rfl | cases elements

theorem around_of_callee (presents : callee? v = some callee) (seen : List Identity) :
    v.around seen = seen := by
  cases v <;> first | rfl | cases presents

theorem opened_dict (members : Table Value) (w : World) :
    (dictOf members).opened w seen = .ok (.fields members) := by
  have texts : (members.map fun m => (Value.text m.1, m.2)).map (fun e => (e.1.keyText, e.2)) =
      members.map fun m => (.ok m.1, m.2) := by
    rw [List.map_map]
    rfl
  exact congrArg (fun entries => Except.ok (Showing.members entries)) texts

theorem opened_of_callee (presents : callee? v = some callee) (w : World) :
    v.opened w seen = .ok (.presents callee) := by
  cases v with
  | object kind attributes =>
    have look : w.look (.object kind attributes) = .presents callee := by
      unfold World.look
      dsimp only [Value.resolve]
      rw [show presented? attributes = some callee from presents]
    exact congrArg Except.ok look
  | presenter _ | event _ =>
    cases presents
    rfl
  | _ => cases presents

theorem opened_of_attributes (plain : callee? (.object kind attributes) = none) (w : World) :
    (Value.object kind attributes).opened w seen =
      .ok (.fields (attributes.filter fun a => isPublic a.1)) := by
  have look : w.look (.object kind attributes) =
      .fields (attributes.filter fun a => isPublic a.1) := by
    unfold World.look
    dsimp only [Value.resolve]
    rw [show presented? attributes = none from plain]
  exact congrArg Except.ok look

theorem opened_shared (seen : List Identity) (label : Text) (w : World) :
    (Value.shared label).opened w seen =
      if seen.contains (.cell label) then .ok (.whole circular) else .ok (w.look (.shared label)) := rfl

theorem opened_onPath {path : List Text} (onPath : label ∈ path) (w : World) :
    (Value.shared label).opened w (path.map .cell) = .ok (.whole circular) := by
  rw [opened_shared, if_pos (by simpa using onPath)]

theorem opened_node (seen : List Identity) (isNode : isNode node = true) (w : World) :
    node.opened w seen = .ok (w.look node) ∧ node.around seen = seen := by
  cases node with
  | list _ | tuple _ | set _ | dict _ | object _ _ | presenter _ => exact ⟨rfl, rfl⟩
  | _ => cases isNode

theorem look_shared (found : w.cells.find? label = some node) (isNode : isNode node = true) :
    w.look (.shared label) = w.look node := by
  have resolved : (Value.shared label).resolve w.cells = node := by
    rw [Value.resolve, found]
    rfl
  have same : node.resolve w.cells = node := by
    cases node with
    | shared _ => cases isNode
    | _ => rfl
  rw [look, resolved, look, same]

/-- A shared object that is not on the path shows what it is, and is on the path from then on. -/
theorem document_of_found {path : List Text} (new : label ∉ path)
    (found : w.cells.find? label = some node) (isNode : isNode node = true) :
    (Value.shared label).document (room + 1) (path.map .cell) w =
      node.document (room + 1) ((label :: path).map .cell) w := by
  obtain ⟨opened, around⟩ := opened_node ((label :: path).map .cell) isNode w
  have opened' : (Value.shared label).opened w (path.map .cell) = .ok (w.look node) := by
    rw [opened_shared, if_neg (by simpa using new), look_shared found isNode]
  rw [document_of_opened opened', document_of_opened opened, around]
  rfl

end Opened

/-! ### Documents of trees -/

namespace Tree

variable {room : Nat}

/-- The document of a tree, if there is room for it. -/
def within (room : Nat) (tree : Tree) : Outcome Json :=
  if tree.depth ≤ room then .returned tree.document else .failed tooDeep

theorem within_of_flat {tree : Tree} (flat : tree.depth = 1) :
    tree.within (room + 1) = .returned tree.document :=
  if_pos (by omega)

theorem within_items (parts : List (Value × Tree)) :
    (items (parts.map Prod.snd)).within (room + 1) =
      if ∀ p ∈ parts, p.2.depth ≤ room then .returned (.list (parts.map fun p => p.2.document))
      else .failed tooDeep := by
  simp only [within, depth_items_le, List.forall_mem_map, document_items, List.map_map,
    Function.comp_def]

theorem within_members (parts : List ((Text × Value) × Tree)) :
    (members (parts.map fun p => (p.1.1, p.2))).within (room + 1) =
      if ∀ p ∈ parts, p.2.depth ≤ room then
        .returned (.record (parts.map fun p => (p.1.1, p.2.document)))
      else .failed tooDeep := by
  simp only [within, depth_members_le, List.forall_mem_map, document_members, List.map_map,
    Function.comp_def]

theorem within_presented (shown : Tree) : shown.presented.within (room + 1) = shown.within room := by
  simp only [within, depth, Nat.add_le_add_iff_right, document]

end Tree

theorem gives_within {v : Value} {seen : List Identity} {tree : Tree}
    (deeper : ∀ room, w.Gives (v.document (room + 1) seen) (tree.within (room + 1))) (room : Nat) :
    w.Gives (v.document room seen) (tree.within room) := by
  cases room with
  | zero =>
    rw [Tree.within, if_neg (Nat.not_le.mpr tree.depth_pos)]
    exact fun calls => ⟨calls, rfl⟩
  | succ room => exact deeper room

theorem gives_items {inner : Value → Effect World Json} {parts : List (Value × Tree)} {room : Nat}
    (each : ∀ p ∈ parts, w.Gives (inner p.1) (p.2.within room)) :
    w.Gives ((Showing.items (parts.map Prod.fst)).document inner)
      ((Tree.items (parts.map Prod.snd)).within (room + 1)) := by
  rw [Tree.within_items]
  exact (gives_mapM each).change

theorem gives_members {inner : Value → Effect World Json} {parts : List ((Text × Value) × Tree)}
    {room : Nat} (distinct : (Table.names (parts.map Prod.fst)).Nodup)
    (each : ∀ p ∈ parts, w.Gives (inner p.1.2) (p.2.within room)) :
    w.Gives ((Showing.fields (parts.map Prod.fst)).document inner)
      ((Tree.members (parts.map fun p => (p.1.1, p.2))).within (room + 1)) := by
  have named : ∀ p ∈ parts, w.Gives (memberDocument inner (.ok p.1.1, p.1.2))
      (if p.2.depth ≤ room then .returned (p.1.1, p.2.document) else .failed tooDeep) := by
    intro p listed
    exact (gives_read fun _ => rfl).bind (each p listed).change
  have mapped : w.Gives ((parts.map Prod.fst).mapM fun m => memberDocument inner (.ok m.1, m.2)) _ :=
    gives_mapM named
  have listed : Table.ofList (parts.map fun p => (p.1.1, p.2.document)) =
      parts.map fun p => (p.1.1, p.2.document) := by
    refine Table.ofList_of_nodup ?_
    simpa [Table.names, Function.comp_def] using distinct
  rw [Tree.within_members, ← listed, Showing.fields, Showing.document, List.mapM_map]
  exact mapped.change

theorem gives_called {callee result : Value} (fixed : Fixed callee result) :
    w.Gives callee.called (.returned result) := by
  cases fixed with
  | constant => exact fun calls => ⟨_, rfl⟩
  | function answers => exact fun calls => ⟨_, Prod.ext answers rfl⟩
  | presenter => exact fun calls => ⟨calls, rfl⟩
  | event => exact fun calls => ⟨calls, rfl⟩

/-- The document of a value is that of the tree to which it is unfolded, as far as there is room. -/
theorem Unfolds.gives {path : List Text} {v : Value} {tree : Tree} (unfolds : w.Unfolds path v tree)
    (room : Nat) : w.Gives (v.document room (path.map .cell)) (tree.within room) := by
  induction unfolds generalizing room with
  | leaf found =>
    refine gives_within (fun room => ?_) room
    rw [Tree.within_of_flat rfl]
    exact gives_of_leaf found
  | sequence elements _ ih =>
    refine gives_within (fun room => ?_) room
    refine gives_of_opened (fun _ => opened_of_elements elements _) (gives_items fun p listed => ?_)
    rw [around_of_elements elements]
    exact ih p listed room
  | dict distinct _ ih =>
    refine gives_within (fun room => ?_) room
    exact gives_of_opened (fun _ => opened_dict _ _)
      (gives_members distinct fun p listed => ih p listed room)
  | attributes plain distinct listed _ ih =>
    refine gives_within (fun room => ?_) room
    refine gives_of_opened (fun _ => opened_of_attributes plain _) ?_
    rw [listed]
    refine gives_members ?_ fun p listed => ih p listed room
    rw [← listed]
    exact distinct.sublist (List.filter_sublist.map _)
  | presented presents fixed _ ih =>
    refine gives_within (fun room => ?_) room
    refine gives_of_opened (fun _ => opened_of_callee presents _) ?_
    rw [around_of_callee presents]
    rw [Tree.within_presented]
    exact (gives_called fixed).bind (ih room)
  | marked onPath =>
    refine gives_within (fun room => ?_) room
    rw [Tree.within_of_flat rfl]
    exact gives_of_opened (fun _ => opened_onPath onPath _) (gives_pure w _)
  | entered new found isNode _ ih =>
    refine gives_within (fun room calls => ?_) room
    obtain ⟨calls', ran⟩ := ih (room + 1) calls
    exact ⟨calls', (document_of_found (w := { w with calls := calls }) new found isNode).trans ran⟩

/-- A value that does not stand for itself is rendered as the document of its tree, if the stack has room
for the tree and the integers in it can be written. -/
theorem render_of_unfolds {v : Value} {tree : Tree} (unfolds : w.Unfolds [] v tree) :
    w.render v = (match v.bareText? with
      | some bare => .ofExcept bare
      | none => if tree.depth ≤ w.room then .ofExcept tree.document.print else .failed tooDeep) := by
  unfold World.render Value.render
  cases v.bareText? with
  | some bare => rfl
  | none =>
    obtain ⟨calls, made⟩ := unfolds.gives w.room w.calls
    have made : v.document w.room [] w = (tree.within w.room, { w with calls := calls }) := made
    have room : Effect.read (fun w : World => .ok (Host.room w)) w = (.returned w.room, w) := rfl
    dsimp only
    rw [Effect.bind_of_returned room]
    by_cases fits : tree.depth ≤ w.room
    · rw [Tree.within, if_pos fits] at made
      rw [if_pos fits, Effect.bind_of_returned made]
      rfl
    · rw [Tree.within, if_neg fits] at made
      have halts : (v.document w.room [] w).1 = (Halt.failure tooDeep).outcome :=
        congrArg Prod.fst made
      rw [if_neg fits, Effect.bind_of_halted halts]
      rfl

end GuardedConsole.World
