import GuardedConsole.Proofs.Console.Rendering
import GuardedConsole.Proofs.World.Rendering

/-!
# Marked cycles

A tree marks a shared object only if that object stands inside itself (`cycle_of_marks`), so that one
which is only used more than once is never marked. The other way round, a cycle that is ahead of a value
stays ahead until one of its shared objects comes again (`Ahead`), and there the tree has a mark
(`exists_mark`). `render_unfolding` puts this together with what rendering writes.
-/

namespace GuardedConsole.World

open Time Number Relation

variable {w : World} {path : List Text} {v u : Value} {tree : Tree} {label : Text}

/-- The tree marks the shared object somewhere. -/
inductive Tree.Marks (label : Text) : Tree → Prop where
  | mark : Marks label (.mark label)
  | item {trees : List Tree} {tree : Tree} : tree ∈ trees → Marks label tree →
    Marks label (.items trees)
  | member {trees : List (Text × Tree)} {m : Text × Tree} : m ∈ trees → Marks label m.2 →
    Marks label (.members trees)
  | presented {shown : Tree} : Marks label shown → Marks label (.presented shown)

/-! ### What values show -/

theorem not_shows_of_leaf {j : Json} (found : leaf? v = some j) : ¬w.Shows v u := by
  intro shows
  cases shows with
  | element elements _ => cases found.symm.trans (leaf?_of_elements elements)
  | presented presents _ => cases found.symm.trans (leaf?_of_callee presents)
  | _ => cases found

theorem mem_of_elements {items : List Value} (elements : elements? v = some items)
    (shows : w.Shows v u) : u ∈ items := by
  cases shows with
  | element elements' listed =>
    rw [elements] at elements'
    cases elements'
    exact listed
  | presented presents _ => cases elements.symm.trans (elements?_of_callee presents)
  | _ => cases elements

theorem exists_member {members : Table Value} (shows : w.Shows (dictOf members) u) :
    ∃ m ∈ members, m.2 = u := by
  generalize whole : dictOf members = v at shows
  cases shows with
  | member listed => exact ⟨_, dictOf_injective whole ▸ listed, rfl⟩
  | element elements _ => cases whole; cases elements
  | presented presents _ => cases whole; cases presents
  | _ => cases whole

theorem eq_of_presented {callee result : Value} (presents : callee? v = some callee)
    (fixed : Fixed callee result) (shows : w.Shows v u) : u = result := by
  cases shows with
  | element elements _ => cases elements.symm.trans (elements?_of_callee presents)
  | owned plain _ _ => cases presents.symm.trans plain
  | presented presents' fixed' =>
    rw [presents] at presents'
    cases presents'
    exact fixed.unique fixed'
  | _ => cases presents

theorem exists_attribute {kind : Text} {attributes : Table Value}
    (plain : callee? (.object kind attributes) = none) (shows : w.Shows (.object kind attributes) u) :
    ∃ a ∈ attributes.filter fun a => isPublic a.1, a.2 = u := by
  cases shows with
  | element elements _ => cases elements
  | owned _ listed shown => exact ⟨_, List.mem_filter.mpr ⟨listed, shown⟩, rfl⟩
  | presented presents _ => cases presents.symm.trans plain

theorem eq_of_found {node : Value} (found : w.cells.find? label = some node)
    (shows : w.Shows (.shared label) u) : u = node := by
  cases shows with
  | element elements _ => cases elements
  | presented presents _ => cases presents
  | target found' => exact Option.some.inj (found'.symm.trans found)

/-! ### Only cycles are marked -/

/-- What a tree marks is on the path before it, or stands inside itself. -/
theorem cycle_of_marks (unfolds : w.Unfolds path v tree) (marks : tree.Marks label) :
    label ∈ path ∧ ReflTransGen w.Shows v (.shared label) ∨
      TransGen w.Shows (.shared label) (.shared label) := by
  have step {v u : Value} {path : List Text} (shows : w.Shows v u)
      (later : label ∈ path ∧ ReflTransGen w.Shows u (.shared label) ∨
        TransGen w.Shows (.shared label) (.shared label)) :
      label ∈ path ∧ ReflTransGen w.Shows v (.shared label) ∨
        TransGen w.Shows (.shared label) (.shared label) :=
    later.imp (fun ⟨onPath, reached⟩ => ⟨onPath, reached.head shows⟩) id
  induction unfolds with
  | leaf _ => cases marks
  | sequence elements _ ih =>
    cases marks with
    | item listed marks =>
      obtain ⟨p, member, rfl⟩ := List.mem_map.mp listed
      exact step (.element elements (List.mem_map_of_mem member)) (ih p member marks)
  | dict _ _ ih =>
    cases marks with
    | member listed marks =>
      obtain ⟨p, member, rfl⟩ := List.mem_map.mp listed
      exact step (.member (List.mem_map_of_mem member)) (ih p member marks)
  | attributes plain _ listed _ ih =>
    cases marks with
    | member inside marks =>
      obtain ⟨p, member, rfl⟩ := List.mem_map.mp inside
      have kept := List.mem_map_of_mem (f := Prod.fst) member
      rw [← listed] at kept
      obtain ⟨inAttributes, shown⟩ := List.mem_filter.mp kept
      exact step (.owned plain inAttributes shown) (ih p member marks)
  | presented presents fixed _ ih =>
    cases marks with
    | presented marks => exact step (.presented presents fixed) (ih marks)
  | marked onPath =>
    cases marks
    exact .inl ⟨onPath, .refl⟩
  | @entered path entered node tree new found _ _ ih =>
    rcases ih marks with ⟨onPath, reached⟩ | cycle
    · rcases List.mem_cons.mp onPath with rfl | before
      · exact .inr (.head' (.target found) reached)
      · exact .inl ⟨before, reached.head (.target found)⟩
    · exact .inr cycle

/-! ### Every cycle is marked -/

/-- A way out of one value can be cut so that it does not come back to that value. -/
theorem exists_way_off {α : Type} {r : α → α → Prop} {a b : α} (way : ReflTransGen r a b)
    (apart : a ≠ b) : ∃ c, r a c ∧ ReflTransGen (fun x y => r x y ∧ x ≠ a) c b := by
  induction way with
  | refl => exact (apart rfl).elim
  | @tail x y _ step ih =>
    by_cases back : a = x
    · subst back
      exact ⟨y, step, .refl⟩
    · obtain ⟨c, first, later⟩ := ih back
      exact ⟨c, first, later.tail ⟨step, Ne.symm back⟩⟩

/-- A step that does not lead on from a shared object of the path. -/
def StepsOff (w : World) (path : List Text) (v u : Value) : Prop :=
  w.Shows v u ∧ ∀ k ∈ path, v ≠ .shared k

/-- A cycle of the shared object is ahead: the object is on the path, or is reached off the path. -/
inductive Ahead (w : World) (label : Text) : List Text → Value → Prop where
  | inside {path : List Text} {v : Value} : label ∈ path →
    ReflTransGen w.Shows (.shared label) v → ReflTransGen w.Shows v (.shared label) →
    Ahead w label path v
  | before {path : List Text} {v : Value} : TransGen w.Shows (.shared label) (.shared label) →
    ReflTransGen (w.StepsOff path) v (.shared label) → Ahead w label path v

namespace Ahead

variable {k : Text} {node : Value}

theorem step (ahead : w.Ahead label path v) (noShared : ∀ k, v ≠ .shared k) :
    ∃ u, w.Shows v u ∧ w.Ahead label path u := by
  cases ahead with
  | inside onPath out back =>
    rcases back.cases_head with rfl | ⟨u, shows, rest⟩
    · exact (noShared label rfl).elim
    · exact ⟨u, shows, .inside onPath (out.tail shows) rest⟩
  | before cycle way =>
    rcases way.cases_head with rfl | ⟨u, ⟨shows, _⟩, rest⟩
    · exact (noShared label rfl).elim
    · exact ⟨u, shows, .before cycle rest⟩

theorem of_marked (onPath : k ∈ path) (ahead : w.Ahead label path (.shared k)) :
    ReflTransGen w.Shows (.shared label) (.shared k) ∧
      ReflTransGen w.Shows (.shared k) (.shared label) := by
  cases ahead with
  | inside _ out back => exact ⟨out, back⟩
  | before _ way =>
    rcases way.cases_head with same | ⟨_, ⟨_, off⟩, _⟩
    · cases same
      exact ⟨.refl, .refl⟩
    · exact (off k onPath rfl).elim

theorem of_entered (new : k ∉ path) (found : w.cells.find? k = some node)
    (ahead : w.Ahead label path (.shared k)) : w.Ahead label (k :: path) node := by
  cases ahead with
  | inside onPath out back =>
    rcases back.cases_head with same | ⟨u, shows, rest⟩
    · cases same
      exact (new onPath).elim
    · obtain rfl := eq_of_found found shows
      exact .inside (List.mem_cons_of_mem k onPath) (out.tail shows) rest
  | before cycle way =>
    by_cases same : k = label
    · subst same
      obtain ⟨u, shows, back⟩ := TransGen.head'_iff.mp cycle
      obtain rfl := eq_of_found found shows
      exact .inside List.mem_cons_self (.single shows) back
    · obtain ⟨u, ⟨shows, _⟩, rest⟩ := exists_way_off way fun equal => same (Value.shared.inj equal)
      obtain rfl := eq_of_found found shows
      refine .before cycle (ReflTransGen.mono ?_ _ _ rest)
      rintro x y ⟨⟨shows, off⟩, other⟩
      exact ⟨shows, List.forall_mem_cons.mpr ⟨other, off⟩⟩

end Ahead

/-- If a cycle is ahead, then one of its shared objects is marked. -/
theorem exists_mark (unfolds : w.Unfolds path v tree) (ahead : w.Ahead label path v) :
    ∃ k, tree.Marks k ∧ ReflTransGen w.Shows (.shared label) (.shared k) ∧
      ReflTransGen w.Shows (.shared k) (.shared label) := by
  induction unfolds with
  | leaf found =>
    obtain ⟨u, shows, _⟩ := ahead.step (by rintro k rfl; cases found)
    exact (not_shows_of_leaf found shows).elim
  | sequence elements _ ih =>
    obtain ⟨u, shows, later⟩ := ahead.step (by rintro k rfl; cases elements)
    obtain ⟨p, member, rfl⟩ := List.mem_map.mp (mem_of_elements elements shows)
    obtain ⟨k, marks, cycle⟩ := ih p member later
    exact ⟨k, .item (List.mem_map_of_mem member) marks, cycle⟩
  | dict _ _ ih =>
    obtain ⟨u, shows, later⟩ := ahead.step nofun
    obtain ⟨m, listed, rfl⟩ := exists_member shows
    obtain ⟨p, member, rfl⟩ := List.mem_map.mp listed
    obtain ⟨k, marks, cycle⟩ := ih p member later
    exact ⟨k, .member (List.mem_map_of_mem member) marks, cycle⟩
  | attributes plain _ listed _ ih =>
    obtain ⟨u, shows, later⟩ := ahead.step nofun
    obtain ⟨a, kept, rfl⟩ := exists_attribute plain shows
    rw [listed] at kept
    obtain ⟨p, member, rfl⟩ := List.mem_map.mp kept
    obtain ⟨k, marks, cycle⟩ := ih p member later
    exact ⟨k, .member (List.mem_map_of_mem member) marks, cycle⟩
  | presented presents fixed _ ih =>
    obtain ⟨u, shows, later⟩ := ahead.step (by rintro k rfl; cases presents)
    obtain rfl := eq_of_presented presents fixed shows
    obtain ⟨k, marks, cycle⟩ := ih later
    exact ⟨k, .presented marks, cycle⟩
  | marked onPath => exact ⟨_, .mark, ahead.of_marked onPath⟩
  | entered new found _ _ ih => exact ih (ahead.of_entered new found)

theorem marks_of_cycle (unfolds : w.Unfolds [] v tree)
    (reached : ReflTransGen w.Shows v (.shared label))
    (cycle : TransGen w.Shows (.shared label) (.shared label)) :
    ∃ k, tree.Marks k ∧ ReflTransGen w.Shows (.shared label) (.shared k) ∧
      ReflTransGen w.Shows (.shared k) (.shared label) :=
  exists_mark unfolds (.before cycle
    (ReflTransGen.mono (fun _ _ shows => ⟨shows, List.forall_mem_nil _⟩) _ _ reached))

/-! ### What is rendered -/

/-- Whatever is shared or stands inside itself, a value is rendered as the one tree to which it is
unfolded along the paths from it, if the stack has room for the tree and the integers in it can be
written. A shared object is marked only if it stands inside itself, and wherever a cycle is reached, one
of its objects is marked. -/
theorem render_unfolding (w : World) (v : Value)
    (regular : ∀ u, ReflTransGen w.Shows v u → w.Regular u) :
    ∃ tree, w.Unfolds [] v tree ∧ (∀ tree', w.Unfolds [] v tree' → tree' = tree) ∧
      w.render v = (match v.bareText? with
        | some bare => .ofExcept bare
        | none =>
          if tree.depth ≤ w.room then .ofExcept tree.document.print
          else .failed Value.tooDeep) ∧
      (∀ label, tree.Marks label → TransGen w.Shows (.shared label) (.shared label)) ∧
      ∀ label, ReflTransGen w.Shows v (.shared label) →
        TransGen w.Shows (.shared label) (.shared label) →
        ∃ k, tree.Marks k ∧ ReflTransGen w.Shows (.shared label) (.shared k) ∧
          ReflTransGen w.Shows (.shared k) (.shared label) := by
  obtain ⟨tree, unfolds⟩ := exists_unfolds List.nodup_nil (List.nil_subset _) regular
  refine ⟨tree, unfolds, fun _ => unfolds.unique, render_of_unfolds unfolds, fun label marks => ?_,
    fun label => ?_⟩
  · rcases cycle_of_marks unfolds marks with ⟨onPath, _⟩ | cycle
    · exact (List.not_mem_nil onPath).elim
    · exact cycle
  · exact marks_of_cycle unfolds

/-- A box that is used twice, in a hall that stands inside itself. -/
def hall : Value :=
  .object "Hall".toText
    [("left".toText, .shared "box".toText), ("right".toText, .shared "box".toText),
      ("_owner".toText, .int 1), ("around".toText, .list [.shared "hall".toText])]

def thing : Value :=
  .object "Thing".toText [("to_dict".toText, .constant "to_dict".toText (.text "lamp".toText))]

def box : Value :=
  dictOf [("holds".toText, thing)]

def house : World :=
  { World.fresh ⟨0, none, Nat.zero_lt_succ _⟩ with
    cells := [("hall".toText, hall), ("box".toText, box)] }

/-- The values that are reached in the house. -/
def inHouse : List Value :=
  [.shared "hall".toText, hall, .shared "box".toText, .list [.shared "hall".toText], box, thing,
    .text "lamp".toText]

theorem inHouse_closed (listed : v ∈ inHouse) (shows : house.Shows v u) : u ∈ inHouse := by
  simp only [inHouse, List.mem_cons, List.not_mem_nil, or_false] at listed ⊢
  rcases listed with rfl | rfl | rfl | rfl | rfl | rfl | rfl
  · obtain rfl := eq_of_found rfl shows
    simp
  · obtain ⟨a, kept, rfl⟩ := exists_attribute rfl shows
    obtain ⟨inHall, shown⟩ := List.mem_filter.mp kept
    simp only [List.mem_cons, List.not_mem_nil, or_false] at inHall
    rcases inHall with rfl | rfl | rfl | rfl
    · simp
    · simp
    · cases shown
    · simp
  · obtain rfl := eq_of_found rfl shows
    simp
  · obtain rfl := List.mem_singleton.mp (mem_of_elements rfl shows)
    simp
  · obtain ⟨m, listed, rfl⟩ := exists_member shows
    obtain rfl := List.mem_singleton.mp listed
    simp
  · obtain rfl := eq_of_presented rfl .constant shows
    simp
  · exact (not_shows_of_leaf rfl shows).elim

theorem inHouse_regular (listed : v ∈ inHouse) : house.Regular v := by
  simp only [inHouse, List.mem_cons, List.not_mem_nil, or_false] at listed
  rcases listed with rfl | rfl | rfl | rfl | rfl | rfl | rfl
  · exact ⟨hall, rfl, rfl⟩
  · exact ⟨by decide, nofun⟩
  · exact ⟨box, rfl, rfl⟩
  · trivial
  · exact ⟨[("holds".toText, thing)], by decide, rfl⟩
  · refine ⟨by decide, ?_⟩
    rintro _ ⟨rfl⟩
    exact ⟨_, .constant⟩
  · trivial

def boxTree : Tree :=
  .members [("holds".toText, .presented (.leaf (.text "lamp".toText)))]

theorem unfolds_box (new : "box".toText ∉ path) :
    house.Unfolds path (.shared "box".toText) boxTree := by
  have holds : ∀ p ∈ [(("holds".toText, thing), Tree.presented (.leaf (.text "lamp".toText)))],
      house.Unfolds ("box".toText :: path) p.1.2 p.2 :=
    List.forall_mem_singleton.mpr (.presented rfl .constant (.leaf rfl))
  exact .entered new rfl rfl (.dict (by decide) holds)

def hallTree : Tree :=
  .members [("left".toText, boxTree), ("right".toText, boxTree),
    ("around".toText, .items [.mark "hall".toText])]

theorem unfolds_hall : house.Unfolds [] (.shared "hall".toText) hallTree := by
  have around : ∀ p ∈ [(Value.shared "hall".toText, Tree.mark "hall".toText)],
      house.Unfolds ["hall".toText] p.1 p.2 :=
    List.forall_mem_singleton.mpr (.marked List.mem_cons_self)
  have box : house.Unfolds ["hall".toText] (.shared "box".toText) boxTree :=
    unfolds_box (by decide)
  have shown : ∀ p ∈ [(("left".toText, Value.shared "box".toText), boxTree),
      (("right".toText, .shared "box".toText), boxTree),
      (("around".toText, .list [.shared "hall".toText]), .items [.mark "hall".toText])],
      house.Unfolds ["hall".toText] p.1.2 p.2 :=
    List.forall_mem_cons.mpr ⟨box, List.forall_mem_cons.mpr ⟨box,
      List.forall_mem_singleton.mpr (.sequence rfl around)⟩⟩
  exact .entered List.not_mem_nil rfl rfl (.attributes rfl (by decide) rfl shown)

theorem render_house :
    (∀ u, ReflTransGen house.Shows (.shared "hall".toText) u → house.Regular u) ∧
      house.Unfolds [] (.shared "hall".toText) hallTree ∧
      house.render (.shared "hall".toText) = .returned (Json.write (.record
        [("left".toText, .record [("holds".toText, .text "lamp".toText)]),
          ("right".toText, .record [("holds".toText, .text "lamp".toText)]),
          ("around".toText, .list [Value.circular])])) := by
  have regular : ∀ u, ReflTransGen house.Shows (.shared "hall".toText) u → house.Regular u := by
    intro u reached
    have inside : u ∈ inHouse := by
      induction reached with
      | refl => exact List.mem_cons_self
      | tail _ shows ih => exact inHouse_closed ih shows
    exact inHouse_regular inside
  obtain ⟨tree, _, unique, rendered, _⟩ := render_unfolding house _ regular
  obtain rfl := unique _ unfolds_hall
  have fits : hallTree.depth ≤ house.room := by decide
  have printed : (if hallTree.depth ≤ house.room then .ofExcept hallTree.document.print
      else Outcome.failed Value.tooDeep) = .ofExcept hallTree.document.print := if_pos fits
  exact ⟨regular, unfolds_hall, rendered.trans printed⟩

/-! ### Limits of rendering -/

/-- The smallest integer with too many digits. -/
def overlong : Int :=
  Nat.pow 10 maxIntegerDigits

theorem isWritable_overlong : isWritable overlong = false := by
  rw [isWritable, overlong, Int.natAbs_natCast, decide_eq_false (Nat.lt_irrefl _)]

/-- Lists inside one another, on so many levels around an empty one. -/
def nested : Nat → Value
  | 0 => .list []
  | levels + 1 => .list [nested levels]

theorem exists_unfolds_nested (levels : Nat) :
    ∃ tree, w.Unfolds path (nested levels) tree ∧ tree.depth = levels + 1 := by
  induction levels with
  | zero => exact ⟨.items [], .sequence rfl (List.forall_mem_nil _), rfl⟩
  | succ levels ih =>
    obtain ⟨tree, unfolds, depth⟩ := ih
    have inside : ∀ p ∈ [(nested levels, tree)], w.Unfolds path p.1 p.2 :=
      List.forall_mem_singleton.mpr unfolds
    refine ⟨.items [tree], .sequence rfl inside, ?_⟩
    rw [Tree.depth, Tree.depths, Tree.depths, depth, Nat.max_zero]

theorem exists_nested {levels : Nat} (reached : ReflTransGen w.Shows (nested levels) v) :
    ∃ fewer, v = nested fewer := by
  induction reached with
  | refl => exact ⟨levels, rfl⟩
  | tail _ shows ih =>
    obtain ⟨fewer, rfl⟩ := ih
    cases fewer with
    | zero => exact (List.not_mem_nil (mem_of_elements rfl shows)).elim
    | succ fewer => exact ⟨fewer, List.mem_singleton.mp (mem_of_elements rfl shows)⟩

/-- Neither an integer with too many digits is rendered nor lists that go too deep for the stack. -/
theorem limits_of_rendering :
    let w := World.fresh ⟨0, none, Nat.zero_lt_succ _⟩
    (∀ u, ReflTransGen w.Shows (.int overlong) u → w.Regular u) ∧
      w.Unfolds [] (.int overlong) (.leaf (.int overlong)) ∧
      w.render (.int overlong) = .failed Value.unwritable ∧
      (∀ u, ReflTransGen w.Shows (nested 500) u → w.Regular u) ∧
      (∃ tree, w.Unfolds [] (nested 500) tree) ∧ w.render (nested 500) = .failed Value.tooDeep := by
  refine ⟨?_, .leaf rfl, Value.render_halts_iff.mpr (.bareInteger isWritable_overlong), ?_, ?_, ?_⟩
  · intro u reached
    rcases reached.cases_head with rfl | ⟨_, shows, _⟩
    · trivial
    · exact (not_shows_of_leaf rfl shows).elim
  · intro u reached
    obtain ⟨fewer, rfl⟩ := exists_nested reached
    cases fewer <;> trivial
  · obtain ⟨tree, unfolds, _⟩ := exists_unfolds_nested 500
    exact ⟨tree, unfolds⟩
  · obtain ⟨tree, unfolds, depth⟩ := exists_unfolds_nested 500
    rw [render_of_unfolds unfolds]
    exact if_neg (by rw [depth]; decide)

end GuardedConsole.World
