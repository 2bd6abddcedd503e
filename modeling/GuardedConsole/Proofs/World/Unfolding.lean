import Mathlib.Data.List.Nodup
import Mathlib.Data.List.Perm.Subperm
import Mathlib.Logic.Relation
import GuardedConsole.World.Look

/-!
# Unfolding shared objects

Shared objects can stand inside themselves, so that what they hold is a graph. `Unfolds` says what tree
a value is unfolded to along the paths that lead from it: a shared object that is on the path is
marked, and any other is unfolded with it on the path. No value has two such trees
(`Unfolds.unique`), and every regular value has one, whatever is shared or goes in circles:
`exists_unfolds`.
-/

namespace GuardedConsole.World

open Time

/-! ### Trees -/

/-- What a value is unfolded to. -/
inductive Tree where
  | leaf (document : Json)
  | items (trees : List Tree)
  | members (trees : List (Text × Tree))
  | presented (shown : Tree)
  | mark (label : Text)

/-! ### What values show -/

/-- The document of a value without parts. -/
def leaf? : Value → Option Json
  | .null | .undefined => some .null
  | .bool b => some (.bool b)
  | .int i => some (.int i)
  | .float x => some (.float x)
  | .text t => some (.text t)
  | .moment m => some (.text (Iso.write m))
  | .date d => some (.text (Iso.dateText d))
  | .function name _ | .constant name _ | .method _ name =>
    some (.text ("[Function: ".toText ++ name ++ [.char ']']))
  | .callable kind => some (.text ("[Function: ".toText ++ kind ++ [.char ']']))
  | .help => some (.text "[Function: help]".toText)
  | .plainClass name => some (.text ("[Class: ".toText ++ name ++ [.char ']']))
  | .eventClass => some (.text "[Class: Event]".toText)
  | .sealed _ shown => some (.text shown)
  | .eventStore | .undoHistory => some (.record [])
  | _ => none

def elements? : Value → Option (List Value)
  | .list items | .tuple items | .set items => some items
  | _ => none

/-- What is called to get the value that is shown in place of an object. -/
def callee? : Value → Option Value
  | .object _ attributes => Table.find? "to_dict".toText attributes
  | .presenter shown => some (.method (.presenter shown) "to_dict".toText)
  | .event e => some (.method (.event e) "to_dict".toText)
  | _ => none

/-- A function that gives the same value whenever it is called without arguments. -/
inductive Fixed : Value → Value → Prop where
  | constant {name : Text} {result : Value} : Fixed (.constant name result) result
  | function {name : Text} {behaviour : Behaviour} {result : Value} :
    behaviour.answer [] = .returned result → Fixed (.function name behaviour) result
  | presenter {shown : Value} : Fixed (.method (.presenter shown) "to_dict".toText) shown
  | event {e : Event} : Fixed (.method (.event e) "to_dict".toText) (.dict e.entries)

/-- What a shared object can be: a container, or an object that is no event. -/
def isNode : Value → Bool
  | .list _ | .tuple _ | .set _ | .dict _ | .object _ _ | .presenter _ => true
  | _ => false

/-- The dictionary with texts as keys. -/
def dictOf (members : Table Value) : Value :=
  .dict (members.map fun m => (.text m.1, m.2))

/-- The document of the first value is made with that of the second. -/
inductive Shows (w : World) : Value → Value → Prop where
  | element {v u : Value} {items : List Value} : elements? v = some items → u ∈ items → Shows w v u
  | member {members : Table Value} {m : Text × Value} : m ∈ members →
    Shows w (dictOf members) m.2
  | owned {kind : Text} {attributes : Table Value} {a : Text × Value} :
    callee? (.object kind attributes) = none → a ∈ attributes → isPublic a.1 = true →
    Shows w (.object kind attributes) a.2
  | presented {v callee result : Value} : callee? v = some callee → Fixed callee result →
    Shows w v result
  | target {label : Text} {node : Value} : w.cells.find? label = some node →
    Shows w (.shared label) node

/-- The keys of a dictionary are distinct texts, the attributes of an object have distinct names, what
an object has under `to_dict` gives a fixed value, and a shared object exists. -/
def Regular (w : World) : Value → Prop
  | .dict entries => ∃ members : Table Value, members.names.Nodup ∧
      entries = members.map fun m => (.text m.1, m.2)
  | .object kind attributes => (Table.names attributes).Nodup ∧
      ∀ callee, callee? (.object kind attributes) = some callee → ∃ result, Fixed callee result
  | .shared label => ∃ node, w.cells.find? label = some node ∧ isNode node = true
  | .calendar => False
  | _ => True

/-! ### Unfolding -/

/-- The tree that a value is unfolded to behind the shared objects of a path. Dictionaries have texts
as keys, and an object shows what it gives under `to_dict` or else its public attributes. -/
inductive Unfolds (w : World) : List Text → Value → Tree → Prop where
  | leaf {path : List Text} {v : Value} {j : Json} : leaf? v = some j → Unfolds w path v (.leaf j)
  | sequence {path : List Text} {v : Value} {parts : List (Value × Tree)} :
    elements? v = some (parts.map Prod.fst) → (∀ p ∈ parts, Unfolds w path p.1 p.2) →
    Unfolds w path v (.items (parts.map Prod.snd))
  | dict {path : List Text} {parts : List ((Text × Value) × Tree)} :
    (Table.names (parts.map Prod.fst)).Nodup → (∀ p ∈ parts, Unfolds w path p.1.2 p.2) →
    Unfolds w path (dictOf (parts.map Prod.fst)) (.members (parts.map fun p => (p.1.1, p.2)))
  | attributes {path : List Text} {kind : Text} {attributes : Table Value}
    {parts : List ((Text × Value) × Tree)} : callee? (.object kind attributes) = none →
    attributes.names.Nodup → attributes.filter (fun a => isPublic a.1) = parts.map Prod.fst →
    (∀ p ∈ parts, Unfolds w path p.1.2 p.2) →
    Unfolds w path (.object kind attributes) (.members (parts.map fun p => (p.1.1, p.2)))
  | presented {path : List Text} {v callee result : Value} {tree : Tree} : callee? v = some callee →
    Fixed callee result → Unfolds w path result tree → Unfolds w path v (.presented tree)
  | marked {path : List Text} {label : Text} : label ∈ path →
    Unfolds w path (.shared label) (.mark label)
  | entered {path : List Text} {label : Text} {node : Value} {tree : Tree} : label ∉ path →
    w.cells.find? label = some node → isNode node = true → Unfolds w (label :: path) node tree →
    Unfolds w path (.shared label) tree

variable {w : World} {path : List Text} {v u callee result node : Value} {tree tree' : Tree}
  {j : Json} {items : List Value} {kind label : Text} {attributes : Table Value}

/-! ### One tree only -/

theorem leaf?_of_elements (elements : elements? v = some items) : leaf? v = none := by
  cases v <;> first | rfl | cases elements

theorem leaf?_of_callee (presents : callee? v = some callee) : leaf? v = none := by
  cases v <;> first | rfl | cases presents

theorem elements?_of_callee (presents : callee? v = some callee) : elements? v = none := by
  cases v <;> first | rfl | cases presents

theorem Fixed.unique (fixed : Fixed callee result) {result' : Value}
    (fixed' : Fixed callee result') : result' = result := by
  cases fixed with
  | function answers =>
    cases fixed' with
    | function answers' => exact Outcome.returned.inj (answers'.symm.trans answers)
  | constant | presenter | event =>
    cases fixed'
    rfl

theorem dictOf_injective : Function.Injective dictOf := by
  have keyed : Function.Injective fun m : Text × Value => (Value.text m.1, m.2) := by
    rintro ⟨name, value⟩ ⟨name', value'⟩ same
    cases same
    rfl
  exact fun members members' same => List.map_injective_iff.mpr keyed (Value.dict.inj same)

/-- Parts that are unfolded each in one way are unfolded to the same trees. -/
theorem parts_unique {α : Type} {parts parts' : List (α × Tree)}
    (same : parts'.map Prod.fst = parts.map Prod.fst)
    (unique : ∀ p ∈ parts, ∀ p' ∈ parts', p'.1 = p.1 → p'.2 = p.2) : parts' = parts := by
  induction parts generalizing parts' with
  | nil => exact List.map_eq_nil_iff.mp same
  | cons p parts ih =>
    obtain ⟨p', others, rfl, first, rest⟩ := List.map_eq_cons_iff.mp same
    have tree : p'.2 = p.2 := unique p List.mem_cons_self p' List.mem_cons_self first
    have later := ih rest fun q member q' member' =>
      unique q (List.mem_cons_of_mem p member) q' (List.mem_cons_of_mem p' member')
    rw [later, Prod.ext first tree]

namespace Unfolds

theorem of_leaf (found : leaf? v = some j) (unfolds : w.Unfolds path v tree) : tree = .leaf j := by
  cases unfolds with
  | leaf found' =>
    rw [found] at found'
    cases found'
    rfl
  | sequence elements _ => cases found.symm.trans (leaf?_of_elements elements)
  | presented presents _ _ => cases found.symm.trans (leaf?_of_callee presents)
  | _ => cases found

theorem of_elements (elements : elements? v = some items) (unfolds : w.Unfolds path v tree) :
    ∃ parts : List (Value × Tree), parts.map Prod.fst = items ∧
      (∀ p ∈ parts, w.Unfolds path p.1 p.2) ∧ tree = .items (parts.map Prod.snd) := by
  cases unfolds with
  | leaf found => cases found.symm.trans (leaf?_of_elements elements)
  | sequence elements' each =>
    exact ⟨_, Option.some.inj (elements'.symm.trans elements), each, rfl⟩
  | presented presents _ _ => cases elements.symm.trans (elements?_of_callee presents)
  | _ => cases elements

theorem of_dict {members : Table Value} (unfolds : w.Unfolds path (dictOf members) tree) :
    ∃ parts : List ((Text × Value) × Tree), parts.map Prod.fst = members ∧
      (∀ p ∈ parts, w.Unfolds path p.1.2 p.2) ∧
      tree = .members (parts.map fun p => (p.1.1, p.2)) := by
  generalize whole : dictOf members = v at unfolds
  cases unfolds with
  | dict _ each => exact ⟨_, (dictOf_injective whole).symm, each, rfl⟩
  | leaf none => cases whole; cases none
  | sequence elements _ => cases whole; cases elements
  | presented presents _ _ => cases whole; cases presents
  | _ => cases whole

theorem of_attributes (plain : callee? (.object kind attributes) = none)
    (unfolds : w.Unfolds path (.object kind attributes) tree) :
    ∃ parts : List ((Text × Value) × Tree),
      parts.map Prod.fst = attributes.filter (fun a => isPublic a.1) ∧
      (∀ p ∈ parts, w.Unfolds path p.1.2 p.2) ∧
      tree = .members (parts.map fun p => (p.1.1, p.2)) := by
  cases unfolds with
  | leaf none => cases none
  | sequence elements _ => cases elements
  | attributes _ _ listed each => exact ⟨_, listed.symm, each, rfl⟩
  | presented presents _ _ => cases presents.symm.trans plain

theorem of_presented (presents : callee? v = some callee) (fixed : Fixed callee result)
    (unfolds : w.Unfolds path v tree) :
    ∃ shown, w.Unfolds path result shown ∧ tree = .presented shown := by
  cases unfolds with
  | leaf found => cases found.symm.trans (leaf?_of_callee presents)
  | sequence elements _ => cases elements.symm.trans (elements?_of_callee presents)
  | attributes plain _ _ _ => cases presents.symm.trans plain
  | presented presents' fixed' shown =>
    rw [presents] at presents'
    cases presents'
    rw [fixed.unique fixed'] at shown
    exact ⟨_, shown, rfl⟩
  | _ => cases presents

theorem of_onPath (onPath : label ∈ path) (unfolds : w.Unfolds path (.shared label) tree) :
    tree = .mark label := by
  cases unfolds with
  | leaf none => cases none
  | sequence elements _ => cases elements
  | presented presents _ _ => cases presents
  | marked _ => rfl
  | entered new _ _ _ => exact (new onPath).elim

theorem of_found (new : label ∉ path) (found : w.cells.find? label = some node)
    (unfolds : w.Unfolds path (.shared label) tree) : w.Unfolds (label :: path) node tree := by
  cases unfolds with
  | leaf none => cases none
  | sequence elements _ => cases elements
  | presented presents _ _ => cases presents
  | marked onPath => exact (new onPath).elim
  | entered _ found' _ inner =>
    rw [found] at found'
    cases found'
    exact inner

/-- A value is unfolded to one tree only. -/
theorem unique (unfolds : w.Unfolds path v tree) :
    ∀ {tree'}, w.Unfolds path v tree' → tree' = tree := by
  induction unfolds with
  | leaf found => exact of_leaf found
  | sequence elements _ ih =>
    intro tree' other
    obtain ⟨parts', same, each, rfl⟩ := other.of_elements elements
    rw [parts_unique same fun p member p' member' first => ih p member (first ▸ each p' member')]
  | dict _ _ ih =>
    intro tree' other
    obtain ⟨parts', same, each, rfl⟩ := other.of_dict
    rw [parts_unique same fun p member p' member' first => ih p member (first ▸ each p' member')]
  | attributes plain _ listed _ ih =>
    intro tree' other
    obtain ⟨parts', listed', each, rfl⟩ := other.of_attributes plain
    have same := listed'.trans listed
    rw [parts_unique same fun p member p' member' first => ih p member (first ▸ each p' member')]
  | presented presents fixed _ ih =>
    intro tree' other
    obtain ⟨shown, unfolds, rfl⟩ := other.of_presented presents fixed
    rw [ih unfolds]
  | marked onPath => exact of_onPath onPath
  | entered new found _ _ ih => exact fun other => ih (other.of_found new found)

end Unfolds

/-! ### Some tree -/

theorem exists_parts {α : Type} {xs : List α} {value : α → Value}
    (each : ∀ x ∈ xs, ∃ tree, w.Unfolds path (value x) tree) :
    ∃ parts : List (α × Tree), parts.map Prod.fst = xs ∧
      ∀ p ∈ parts, w.Unfolds path (value p.1) p.2 := by
  induction xs with
  | nil => exact ⟨[], rfl, List.forall_mem_nil _⟩
  | cons x xs ih =>
    obtain ⟨⟨tree, unfolds⟩, others⟩ := List.forall_mem_cons.mp each
    obtain ⟨parts, rfl, all⟩ := ih others
    exact ⟨(x, tree) :: parts, rfl, List.forall_mem_cons.mpr ⟨unfolds, all⟩⟩

theorem exists_of_members {members : Table Value} (distinct : members.names.Nodup)
    (each : ∀ m ∈ members, ∃ tree, w.Unfolds path m.2 tree) :
    ∃ tree, w.Unfolds path (dictOf members) tree := by
  obtain ⟨parts, rfl, all⟩ := exists_parts each
  exact ⟨_, .dict distinct all⟩

theorem exists_of_leaves {members : Table Value} (distinct : members.names.Nodup)
    (leaves : ∀ m ∈ members, (leaf? m.2).isSome) : ∃ tree, w.Unfolds path (dictOf members) tree :=
  exists_of_members distinct fun m listed =>
    let ⟨_, found⟩ := Option.isSome_iff_exists.mp (leaves m listed)
    ⟨_, .leaf found⟩

theorem sizeOf_lt_of_entry {α : Type} [SizeOf α] {entry : α × Value} {entries : List (α × Value)}
    (listed : entry ∈ entries) : sizeOf entry.2 < sizeOf entries := by
  have inside := List.sizeOf_lt_of_mem listed
  have whole : sizeOf entry = 1 + sizeOf entry.1 + sizeOf entry.2 := rfl
  omega

theorem sizeOf_lt_of_elements (elements : elements? v = some items) (listed : u ∈ items) :
    sizeOf u < sizeOf v := by
  have inside := List.sizeOf_lt_of_mem listed
  cases v with
  | list _ | tuple _ | set _ =>
    cases elements
    simp only [Value.list.sizeOf_spec, Value.tuple.sizeOf_spec, Value.set.sizeOf_spec]
    omega
  | _ => cases elements

theorem exists_of_event (e : Event) (path : List Text) :
    ∃ tree, w.Unfolds path (.dict e.entries) tree := by
  have leaves : ∃ tree, w.Unfolds path
      (dictOf [("id".toText, .text e.id), ("title".toText, .text e.title),
        ("start".toText, .moment e.start), ("end".toText, .moment e.stop),
        ("allDay".toText, .bool e.allDay), ("description".toText, .text e.description)]) tree :=
    exists_of_leaves (by simp only [Table.names, List.map_cons, List.map_nil]; decide)
      (by simp [leaf?])
  exact leaves

/-- What is shown in place of an object is smaller, or has no parts that are objects. -/
theorem presented_cases (presents : callee? v = some callee) (fixed : Fixed callee result) :
    sizeOf result < sizeOf v ∨ ∀ path, ∃ tree, w.Unfolds path result tree := by
  cases v with
  | object kind attributes =>
    have inside := sizeOf_lt_of_entry (Table.mem_of_find? presents)
    have whole := Value.object.sizeOf_spec kind attributes
    cases fixed with
    | constant =>
      simp only [Value.constant.sizeOf_spec] at inside
      exact .inl (by omega)
    | @function name behaviour result answers =>
      refine .inr fun path => ?_
      cases behaviour <;> cases answers
      · exact ⟨_, .leaf rfl⟩
      · exact ⟨_, @Unfolds.sequence _ _ _ [] rfl (List.forall_mem_nil _)⟩
      · exact ⟨_, .leaf rfl⟩
    | presenter =>
      simp only [Value.method.sizeOf_spec, Value.presenter.sizeOf_spec] at inside
      exact .inl (by omega)
    | event => exact .inr (exists_of_event _)
  | presenter shown =>
    cases presents
    cases fixed
    exact .inl (by simp only [Value.presenter.sizeOf_spec]; omega)
  | event e =>
    cases presents
    cases fixed
    exact .inr (exists_of_event e)
  | _ => cases presents

theorem exists_fixed (regular : w.Regular v) (presents : callee? v = some callee) :
    ∃ result, Fixed callee result := by
  cases v with
  | object kind attributes => exact regular.2 callee presents
  | presenter shown =>
    cases presents
    exact ⟨shown, .presenter⟩
  | event e =>
    cases presents
    exact ⟨_, .event⟩
  | _ => cases presents

/-- What stands inside the value is unfolded to some tree. -/
def UnfoldsInside (w : World) (path : List Text) (v : Value) : Prop :=
  ∀ u, w.Shows v u → sizeOf u < sizeOf v → ∃ tree, w.Unfolds path u tree

theorem exists_of_elements (elements : elements? v = some items) (inside : w.UnfoldsInside path v) :
    ∃ tree, w.Unfolds path v tree := by
  obtain ⟨parts, rfl, all⟩ := exists_parts fun u listed =>
    inside u (.element elements listed) (sizeOf_lt_of_elements elements listed)
  exact ⟨_, .sequence elements all⟩

theorem exists_of_callee (regular : w.Regular v) (presents : callee? v = some callee)
    (inside : w.UnfoldsInside path v) : ∃ tree, w.Unfolds path v tree := by
  obtain ⟨result, fixed⟩ := exists_fixed regular presents
  have unfolds : ∃ tree, w.Unfolds path result tree := by
    rcases presented_cases presents fixed with smaller | all
    · exact inside result (.presented presents fixed) smaller
    · exact all path
  obtain ⟨tree, unfolds⟩ := unfolds
  exact ⟨_, .presented presents fixed unfolds⟩

theorem exists_of_dict {entries : List (Value × Value)} (regular : w.Regular (.dict entries))
    (inside : w.UnfoldsInside path (.dict entries)) : ∃ tree, w.Unfolds path (.dict entries) tree := by
  obtain ⟨members, distinct, rfl⟩ := regular
  refine exists_of_members distinct fun m listed => inside m.2 (.member listed) ?_
  have smaller := sizeOf_lt_of_entry
    (List.mem_map_of_mem (f := fun m : Text × Value => (Value.text m.1, m.2)) listed)
  dsimp only at smaller
  simp only [Value.dict.sizeOf_spec]
  omega

theorem exists_of_attributes (plain : callee? (.object kind attributes) = none)
    (distinct : attributes.names.Nodup) (inside : w.UnfoldsInside path (.object kind attributes)) :
    ∃ tree, w.Unfolds path (.object kind attributes) tree := by
  have shown : ∀ a ∈ attributes.filter fun a => isPublic a.1, ∃ tree, w.Unfolds path a.2 tree := by
    intro a kept
    obtain ⟨listed, shown⟩ := List.mem_filter.mp kept
    have smaller := sizeOf_lt_of_entry listed
    refine inside a.2 (.owned plain listed shown) ?_
    simp only [Value.object.sizeOf_spec]
    omega
  obtain ⟨parts, listed, all⟩ := exists_parts shown
  exact ⟨_, .attributes plain distinct listed.symm all⟩

/-- A regular value is unfolded to some tree if the shared objects are that come next. -/
theorem exists_unfolds_of_entered (v : Value)
    (regular : ∀ u, Relation.ReflTransGen w.Shows v u → w.Regular u)
    (entered : ∀ label node, Relation.ReflTransGen w.Shows v (.shared label) → label ∉ path →
      w.cells.find? label = some node → ∃ tree, w.Unfolds (label :: path) node tree) :
    ∃ tree, w.Unfolds path v tree := by
  have inside : w.UnfoldsInside path v := fun u shows _smaller =>
    exists_unfolds_of_entered u (fun _ reached => regular _ (reached.head shows))
      fun label node reached => entered label node (reached.head shows)
  have here := regular v .refl
  cases found : leaf? v with
  | some j => exact ⟨.leaf j, .leaf found⟩
  | none =>
    cases v with
    | list _ | tuple _ | set _ => exact exists_of_elements rfl inside
    | dict entries => exact exists_of_dict here inside
    | object kind attributes =>
      cases presents : callee? (.object kind attributes) with
      | some callee => exact exists_of_callee here presents inside
      | none => exact exists_of_attributes presents here.1 inside
    | presenter _ | event _ => exact exists_of_callee here rfl inside
    | shared label =>
      by_cases onPath : label ∈ path
      · exact ⟨_, .marked onPath⟩
      · obtain ⟨node, found, isNode⟩ := here
        obtain ⟨tree, unfolds⟩ := entered label node .refl onPath found
        exact ⟨tree, .entered onPath found isNode unfolds⟩
    | calendar => exact here.elim
    | _ => cases found
termination_by v

theorem length_path_le {cells : Cells} (distinct : path.Nodup) (known : path ⊆ cells.names) :
    path.length ≤ cells.length := by
  have shorter := (List.subperm_of_subset distinct known).length_le
  rwa [Table.names, List.length_map] at shorter

/-- A regular value is unfolded to some tree: every shared object that is entered makes the path longer,
and there are not more of them than there are cells. -/
theorem exists_unfolds (distinct : path.Nodup) (known : path ⊆ w.cells.names)
    (regular : ∀ u, Relation.ReflTransGen w.Shows v u → w.Regular u) :
    ∃ tree, w.Unfolds path v tree := by
  induction left : w.cells.length - path.length generalizing path v with
  | zero =>
    refine exists_unfolds_of_entered v regular fun label node reached new found => ?_
    have bound : label ∈ w.cells.names := List.mem_map_of_mem (Table.mem_of_find? found)
    have longer := length_path_le (List.nodup_cons.mpr ⟨new, distinct⟩)
      (List.cons_subset.mpr ⟨bound, known⟩)
    rw [List.length_cons] at longer
    omega
  | succ left' ih =>
    refine exists_unfolds_of_entered v regular fun label node reached new found => ?_
    have bound : label ∈ w.cells.names := List.mem_map_of_mem (Table.mem_of_find? found)
    refine ih (List.nodup_cons.mpr ⟨new, distinct⟩) (List.cons_subset.mpr ⟨bound, known⟩) ?_ ?_
    · exact fun u inner => regular u (reached.trans (inner.head (.target found)))
    · rw [List.length_cons]
      omega

end GuardedConsole.World
