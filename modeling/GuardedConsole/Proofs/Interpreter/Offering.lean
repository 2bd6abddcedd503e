import GuardedConsole.Console.Completion
import GuardedConsole.Proofs.Interpreter.Permission
import GuardedConsole.Proofs.Value.Tables

/-!
# What completion offers

`Offered` says what an interpreter offers, and `mem_completions_iff` that its completions are the
texts of these offers. Looking members up may fail and completion with it, but not in a world
(`completionsOn_world`).
-/

namespace GuardedConsole.Interpreter

variable {σ : Type} {i : Interpreter} {h : Host σ} {s : σ} {v : Value} {offer : Offer}
  {root scope name : Text}

/-! ### What is offered -/

theorem short_none : ([] : List Text).length ≤ 2 :=
  Nat.zero_le 2

theorem short_one (name : Text) : [name].length ≤ 2 :=
  Nat.le_succ 1

theorem short_two (scope name : Text) : [scope, name].length ≤ 2 :=
  Nat.le_refl 2

/-- A public member with this name is found. -/
def Has (h : Host σ) (s : σ) (v : Value) (name : Text) : Prop :=
  name.head? ≠ some (.char '_') ∧ ∃ member, h.member? s name v = .ok (some member)

/-- The name stands for a value that is no class, and is not to be constructed. -/
structure Stands (i : Interpreter) (h : Host σ) (s : σ) (root : Text) (v : Value) : Prop where
  found : i.context.find? root = some v
  unlisted : root ∉ i.constructors
  noClass : h.isClass s v = false

/-- What is offered: the classes that are listed, the other names of the context that are no
classes, and of their values and members the allow-listed names. The name of a value's method is
looked up, that of a member's method is not. -/
inductive Offered (i : Interpreter) (h : Host σ) (s : σ) : Offer → Prop where
  | construct {name : Text} {v : Value} : i.context.find? name = some v → name ∈ i.constructors →
    Offered i h s (.construct name)
  | root {name : Text} {v : Value} : i.Stands h s name v → h.isCallable s v = false →
    Offered i h s (.root name)
  | call {name : Text} {v : Value} : i.Stands h s name v → h.isCallable s v = true →
    Offered i h s (.call ⟨name, [], short_none⟩)
  | own {root name : Text} {v : Value} {names : List Text} : i.Stands h s root v →
    i.allowed.find? root = some names → name ∈ names → Has h s v name →
    Offered i h s (.call ⟨root, [name], short_one name⟩)
  | deeper {root scope name : Text} {v : Value} {names : List Text} : i.Stands h s root v →
    i.allowed.find? scope = some names → scope ≠ root → name ∈ names → Has h s v scope →
    Offered i h s (.call ⟨root, [scope, name], short_two scope name⟩)

/-- The names of the context are distinct ASCII words that stand for something, and no scope has two
allow-lists. -/
structure WellNamed (i : Interpreter) : Prop where
  words : ∀ entry ∈ i.context, Command.isName entry.1 = true
  bound : ∀ entry ∈ i.context, entry.2 ≠ .null
  distinct : i.context.names.Nodup
  scopes : i.allowed.names.Nodup

theorem mem_insertOrdered {t u : Text} {options : List Text} :
    t ∈ insertOrdered u options ↔ t = u ∨ t ∈ options := by
  induction options with
  | nil => rw [insertOrdered, List.mem_singleton]; simp
  | cons first rest ih =>
    rw [insertOrdered]
    split
    · rename_i same
      subst same
      simp
    · split
      · exact List.mem_cons
      · rw [List.mem_cons, ih, List.mem_cons]
        exact or_left_comm

theorem mem_foldr_insertOrdered {t : Text} {texts : List Text} :
    t ∈ texts.foldr insertOrdered [] ↔ t ∈ texts := by
  induction texts with
  | nil => rfl
  | cons u texts ih => rw [List.foldr_cons, mem_insertOrdered, ih, List.mem_cons]

/-- A mapping gives a result if it does so for each element. -/
theorem exists_mapM_ok_iff {ε α β : Type} {g : α → Except ε β} {xs : List α} :
    (∃ ys, xs.mapM g = .ok ys) ↔ ∀ x ∈ xs, ∃ y, g x = .ok y := by
  induction xs with
  | nil => exact iff_of_true ⟨[], rfl⟩ (List.forall_mem_nil _)
  | cons x xs ih =>
    rw [List.forall_mem_cons, ← ih, List.mapM_cons]
    cases g x with
    | error e => exact iff_of_false nofun nofun
    | ok y =>
      cases xs.mapM g with
      | error e => exact iff_of_false nofun nofun
      | ok ys => exact iff_of_true ⟨_, rfl⟩ ⟨⟨y, rfl⟩, ys, rfl⟩

theorem mem_flatten_of_mapM {ε α β : Type} {g : α → Except ε (List β)} {xs : List α}
    {lists : List (List β)} {y : β} (mapped : xs.mapM g = .ok lists) :
    y ∈ lists.flatten ↔ ∃ x ∈ xs, ∃ ys, g x = .ok ys ∧ y ∈ ys := by
  induction xs generalizing lists with
  | nil =>
    cases mapped
    simp
  | cons x xs ih =>
    rw [List.mapM_cons] at mapped
    cases first : g x with
    | error e =>
      rw [first] at mapped
      cases mapped
    | ok ys =>
      cases others : xs.mapM g with
      | error e =>
        rw [first, others] at mapped
        cases mapped
      | ok rest =>
        rw [first, others] at mapped
        cases mapped
        rw [List.flatten_cons, List.mem_append, ih others, List.exists_mem_cons_iff]
        simp [first]

theorem hasMember_eq_ok_true_iff : hasMember h s v name = .ok true ↔ Has h s v name := by
  unfold hasMember Has
  cases shown : isPrivate name with
  | true =>
    have first : name.head? = some (.char '_') := by simpa [isPrivate] using shown
    simp [first]
  | false =>
    rw [if_neg (by simp)]
    have first := isPrivate_eq_false_iff.mp shown
    cases looked : h.member? s name v with
    | error f => simp [Except.map]
    | ok member => cases member <;> simp [Except.map, first]

theorem mem_offersIf_iff {given : List Offer} :
    (∃ offers, offersIf h s v name given = .ok offers ∧ offer ∈ offers) ↔
      Has h s v name ∧ offer ∈ given := by
  rw [← hasMember_eq_ok_true_iff, offersIf]
  cases hasMember h s v name with
  | error f => simp [Except.map]
  | ok found => cases found <;> simp [Except.map]

/-- The methods that are offered for a value and for its members. -/
theorem mem_offeredMethods_iff {methods : List Offer}
    (made : i.offeredMethods h s root v = .ok methods) :
    offer ∈ methods ↔
      (∃ names, i.allowed.find? root = some names ∧ ∃ name ∈ names, Has h s v name ∧
          offer = .call ⟨root, [name], short_one name⟩) ∨
        ∃ scope names, (scope, names) ∈ i.allowed ∧ scope ≠ root ∧ Has h s v scope ∧
          ∃ name ∈ names, offer = .call ⟨root, [scope, name], short_two scope name⟩ := by
  unfold offeredMethods at made
  simp only [bind, Except.bind] at made
  split at made
  · cases made
  · rename_i own ownMade
    split at made
    · cases made
    · rename_i deeper deeperMade
      cases made
      rw [List.mem_append, mem_flatten_of_mapM ownMade, mem_flatten_of_mapM deeperMade]
      refine or_congr ?_ ?_
      · simp only [mem_offersIf_iff, List.mem_singleton]
        cases i.allowed.find? root <;> simp
      · simp only [mem_offersIf_iff, List.mem_map, List.mem_filter, bne_iff_ne, Prod.exists]
        constructor
        · rintro ⟨scope, names, ⟨listed, other⟩, found, name, inside, rfl⟩
          exact ⟨scope, names, listed, other, found, name, inside, rfl⟩
        · rintro ⟨scope, names, listed, other, found, name, inside, rfl⟩
          exact ⟨scope, names, ⟨listed, other⟩, found, name, inside, rfl⟩

theorem offersAt_of_listed (constructed : root ∈ i.constructors) :
    i.offersAt h s root v = .ok [.construct root] :=
  if_pos (by simpa using constructed)

/-- For a value that is no class, the name or a call of it is offered before its methods. -/
theorem offersAt_of_stands {offers : List Offer} (stands : i.Stands h s root v)
    (made : i.offersAt h s root v = .ok offers) :
    ∃ methods, i.offeredMethods h s root v = .ok methods ∧
      offers = (if h.isCallable s v then .call ⟨root, [], short_none⟩ else .root root) :: methods := by
  have unlisted : ¬i.constructors.contains root = true := by simpa using stands.unlisted
  rw [offersAt, if_neg unlisted, stands.noClass, if_neg (by simp)] at made
  cases methodsMade : i.offeredMethods h s root v with
  | error f =>
    rw [methodsMade] at made
    cases made
  | ok methods =>
    rw [methodsMade] at made
    cases made
    exact ⟨methods, rfl, rfl⟩

theorem offered_of_mem {offers : List Offer} (named : i.WellNamed)
    (found : i.context.find? root = some v) (made : i.offersAt h s root v = .ok offers)
    (listed : offer ∈ offers) : i.Offered h s offer := by
  by_cases constructed : root ∈ i.constructors
  · rw [offersAt_of_listed constructed] at made
    cases made
    rw [List.mem_singleton.mp listed]
    exact .construct found constructed
  cases noClass : h.isClass s v with
  | true =>
    rw [offersAt, if_neg (by simpa using constructed), noClass] at made
    cases made
    cases listed
  | false =>
    have stands : i.Stands h s root v := ⟨found, constructed, noClass⟩
    obtain ⟨methods, methodsMade, rfl⟩ := offersAt_of_stands stands made
    rcases List.mem_cons.mp listed with rfl | method
    · cases callable : h.isCallable s v with
      | true => exact .call stands callable
      | false => exact .root stands callable
    · rcases (mem_offeredMethods_iff methodsMade).mp method with
        ⟨names, allowed, name, inside, has, rfl⟩ |
        ⟨scope, names, entry, other, has, name, inside, rfl⟩
      · exact .own stands allowed inside has
      · exact .deeper stands (Table.find?_of_mem named.scopes entry) other inside has

/-- Everything that is offered is offered for some value of the context. -/
theorem Offered.exists_value (offered : i.Offered h s offer) :
    ∃ root v, i.context.find? root = some v ∧
      ∀ offers, i.offersAt h s root v = .ok offers → offer ∈ offers := by
  cases offered with
  | construct found constructed =>
    refine ⟨_, _, found, fun offers made => ?_⟩
    rw [offersAt_of_listed constructed] at made
    cases made
    exact List.mem_singleton_self _
  | root stands noCall =>
    refine ⟨_, _, stands.found, fun offers made => ?_⟩
    obtain ⟨methods, _, rfl⟩ := offersAt_of_stands stands made
    rw [noCall]
    exact List.mem_cons_self
  | call stands callable =>
    refine ⟨_, _, stands.found, fun offers made => ?_⟩
    obtain ⟨methods, _, rfl⟩ := offersAt_of_stands stands made
    rw [callable]
    exact List.mem_cons_self
  | own stands allowed inside has =>
    refine ⟨_, _, stands.found, fun offers made => ?_⟩
    obtain ⟨methods, methodsMade, rfl⟩ := offersAt_of_stands stands made
    have method := (mem_offeredMethods_iff methodsMade).mpr
      (.inl ⟨_, allowed, _, inside, has, rfl⟩)
    exact List.mem_cons_of_mem _ method
  | deeper stands allowed other inside has =>
    refine ⟨_, _, stands.found, fun offers made => ?_⟩
    obtain ⟨methods, methodsMade, rfl⟩ := offersAt_of_stands stands made
    have method := (mem_offeredMethods_iff methodsMade).mpr
      (.inr ⟨_, _, Table.mem_of_find? allowed, other, has, _, inside, rfl⟩)
    exact List.mem_cons_of_mem _ method

theorem offers_eq (i : Interpreter) (h : Host σ) (s : σ) :
    i.offers h s =
      (i.context.mapM fun entry => i.offersAt h s entry.1 entry.2).map List.flatten :=
  rfl

theorem mem_offers_iff {offers : List Offer} (named : i.WellNamed)
    (made : i.offers h s = .ok offers) : offer ∈ offers ↔ i.Offered h s offer := by
  rw [offers_eq] at made
  cases mapped : i.context.mapM fun entry => i.offersAt h s entry.1 entry.2 with
  | error f =>
    rw [mapped] at made
    cases made
  | ok lists =>
    rw [mapped] at made
    cases made
    rw [mem_flatten_of_mapM mapped]
    constructor
    · rintro ⟨⟨root, v⟩, entry, ys, made, listed⟩
      exact offered_of_mem named (Table.find?_of_mem named.distinct entry) made listed
    · intro offered
      obtain ⟨root, v, found, inside⟩ := offered.exists_value
      have entry := Table.mem_of_find? found
      obtain ⟨ys, made⟩ := exists_mapM_ok_iff.mp ⟨lists, mapped⟩ _ entry
      exact ⟨_, entry, ys, made, inside ys made⟩

/-- The completions are the texts of what is offered. -/
theorem mem_completions_iff {options : List Text} {option : Text} (named : i.WellNamed)
    (listed : i.completionsOn h s = .ok options) :
    option ∈ options ↔ ∃ offer, i.Offered h s offer ∧ offer.text = option := by
  unfold completionsOn at listed
  cases made : i.offers h s with
  | error f =>
    rw [made] at listed
    cases listed
  | ok offers =>
    rw [made] at listed
    cases listed
    rw [mem_foldr_insertOrdered, List.mem_map]
    simp only [mem_offers_iff named made]

/-! ### Completions in a world -/

theorem offersIf_world (w : World) (v : Value) (name : Text) (given : List Offer) :
    ∃ offers, offersIf World.host w v name given = .ok offers := by
  unfold offersIf hasMember
  split <;> exact ⟨_, rfl⟩

theorem offersAt_world (i : Interpreter) (w : World) (root : Text) (v : Value) :
    ∃ offers, i.offersAt World.host w root v = .ok offers := by
  obtain ⟨own, ownMade⟩ := exists_mapM_ok_iff.mpr fun name
    (_ : name ∈ (i.allowed.find? root).getD []) =>
    offersIf_world w v name [.call ⟨root, [name], by simp⟩]
  obtain ⟨deeper, deeperMade⟩ := exists_mapM_ok_iff.mpr fun entry
    (_ : entry ∈ i.allowed.filter fun entry => entry.1 != root) => offersIf_world w v entry.1
      (entry.2.map fun name => .call ⟨root, [entry.1, name], by simp⟩)
  have made : i.offeredMethods World.host w root v = .ok (own.flatten ++ deeper.flatten) := by
    unfold offeredMethods
    rw [ownMade]
    simp only [bind, Except.bind, deeperMade]
    rfl
  unfold offersAt
  split
  · exact ⟨_, rfl⟩
  · split
    · exact ⟨_, rfl⟩
    · rw [made]
      exact ⟨_, rfl⟩

/-- In a world, completion does not fail. -/
theorem completionsOn_world (i : Interpreter) (w : World) :
    i.completionsOn World.host w = .ok (i.completions w) := by
  obtain ⟨lists, mapped⟩ := exists_mapM_ok_iff.mpr fun entry (_ : entry ∈ i.context) =>
    i.offersAt_world w entry.1 entry.2
  have made : i.offers World.host w = .ok lists.flatten := by
    rw [Interpreter.offers, mapped]
    rfl
  rw [completions, completionsOn, made]
  rfl

end GuardedConsole.Interpreter
