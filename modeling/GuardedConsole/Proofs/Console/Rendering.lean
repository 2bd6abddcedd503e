import Mathlib.Logic.Relation
import GuardedConsole.Console.Rendering
import GuardedConsole.Proofs.Halting

/-!
# Where rendering halts

Making a document goes from a value to the values inside it, one after another. A `Stage` is where this
can come to: a value, the objects around it, the room that is left on the stack, and the state of the
host. `Stage.Inside` leads from a stage to those that are come to next, and `Stage.HaltsAt` says at which
stages there is no way on: where there is no room, where looking at a value or wording a key fails, and
where a call fails or never ends. Making a document halts exactly where such a stage is come to
(`Stage.halts_iff`), and rendering halts there and on integers with too many digits
(`Value.render_halts_iff`).
-/

namespace GuardedConsole

open Relation

variable {σ : Type}

/-! ### What is shown -/

namespace Showing

variable {inner : Value → Effect σ Json} {s : σ} {h : Halt}

section Parts

variable (inner) [Host σ]

/-- The document of the value is made in a state, once those before it are made. -/
inductive Next (s : σ) : Showing → Value → σ → Prop where
  | item {before after : List Value} {u : Value} {t : σ} {documents : List Json} :
    before.mapM inner s = (.returned documents, t) → Next s (.items (before ++ u :: after)) u t
  | member {before after : List (Except Failure Text × Value)} {name : Text} {u : Value} {t : σ}
    {members : List (Text × Json)} :
    before.mapM (memberDocument inner) s = (.returned members, t) →
    Next s (.members (before ++ (.ok name, u) :: after)) u t
  | presented {callee u : Value} {t : σ} : callee.called s = (.returned u, t) →
    Next s (.presents callee) u t

/-- A key has no text, or a call returns nothing. -/
inductive HaltsAt (s : σ) : Showing → Halt → Prop where
  | unnamed {before after : List (Except Failure Text × Value)} {f : Failure} {u : Value} {t : σ}
    {members : List (Text × Json)} :
    before.mapM (memberDocument inner) s = (.returned members, t) →
    HaltsAt s (.members (before ++ (.error f, u) :: after)) (.failure f)
  | called {callee : Value} {h : Halt} : (callee.called s).1 = h.outcome →
    HaltsAt s (.presents callee) h

end Parts

theorem memberDocument_halts_iff {entry : Except Failure Text × Value} :
    (memberDocument inner entry s).1 = h.outcome ↔
      (∃ f, entry.1 = .error f ∧ h = .failure f) ∨
        ∃ name, entry.1 = .ok name ∧ (inner entry.2 s).1 = h.outcome := by
  rw [memberDocument, Effect.bind_halts_iff, Effect.read_halts_iff]
  refine or_congr .rfl ?_
  constructor
  · rintro ⟨name, t, read, later⟩
    obtain ⟨named, rfl⟩ := Effect.read_eq_returned_iff.mp read
    exact ⟨name, named, Effect.bind_pure_halts_iff.mp later⟩
  · rintro ⟨name, named, later⟩
    exact ⟨name, s, Effect.read_eq_returned_iff.mpr ⟨named, rfl⟩,
      Effect.bind_pure_halts_iff.mpr later⟩

section Halting

variable [Host σ]

theorem items_halt_iff {values : List Value} :
    ((items values).document inner s).1 = h.outcome ↔
      ∃ u t, (items values).Next inner s u t ∧ (inner u t).1 = h.outcome := by
  rw [document, Effect.bind_pure_halts_iff, Effect.mapM_halts_iff]
  constructor
  · rintro ⟨before, u, after, documents, t, rfl, made, halts⟩
    exact ⟨u, t, .item made, halts⟩
  · rintro ⟨u, t, next, halts⟩
    cases next with
    | item made => exact ⟨_, u, _, _, t, rfl, made, halts⟩

theorem members_halt_iff {entries : List (Except Failure Text × Value)} :
    ((members entries).document inner s).1 = h.outcome ↔
      (members entries).HaltsAt inner s h ∨
        ∃ u t, (members entries).Next inner s u t ∧ (inner u t).1 = h.outcome := by
  rw [document, Effect.bind_pure_halts_iff, Effect.mapM_halts_iff]
  constructor
  · rintro ⟨before, ⟨name, u⟩, after, members, t, rfl, made, halts⟩
    rcases memberDocument_halts_iff.mp halts with ⟨f, rfl, rfl⟩ | ⟨name, rfl, halts⟩
    · exact .inl (.unnamed made)
    · exact .inr ⟨u, t, .member made, halts⟩
  · rintro (halts | ⟨u, t, next, halts⟩)
    · cases halts with
      | unnamed made =>
        exact ⟨_, _, _, _, _, rfl, made, memberDocument_halts_iff.mpr (.inl ⟨_, rfl, rfl⟩)⟩
    · cases next with
      | member made =>
        exact ⟨_, _, _, _, _, rfl, made, memberDocument_halts_iff.mpr (.inr ⟨_, rfl, halts⟩)⟩

theorem presents_halts_iff {callee : Value} :
    ((presents callee).document inner s).1 = h.outcome ↔
      (presents callee).HaltsAt inner s h ∨
        ∃ u t, (presents callee).Next inner s u t ∧ (inner u t).1 = h.outcome := by
  rw [document, Effect.bind_halts_iff]
  constructor
  · rintro (halts | ⟨u, t, made, halts⟩)
    · exact .inl (.called halts)
    · exact .inr ⟨u, t, .presented made, halts⟩
  · rintro (halts | ⟨u, t, next, halts⟩)
    · cases halts with
      | called halts => exact .inl halts
    · cases next with
      | presented made => exact .inr ⟨u, t, made, halts⟩

/-- What is shown halts of itself, or where the document of a value in it does. -/
theorem document_halts_iff {showing : Showing} :
    (showing.document inner s).1 = h.outcome ↔
      showing.HaltsAt inner s h ∨ ∃ u t, showing.Next inner s u t ∧ (inner u t).1 = h.outcome := by
  cases showing with
  | whole document => exact iff_of_false Outcome.returned_ne_outcome nofun
  | items values => exact items_halt_iff.trans (or_iff_right nofun).symm
  | members entries => exact members_halt_iff
  | presents callee => exact presents_halts_iff

end Halting

end Showing

/-! ### Stages -/

/-- Where making a document can come to. -/
structure Stage (σ : Type) where
  room : Nat
  seen : List Identity
  value : Value
  state : σ

namespace Stage

variable [Host σ] {a b : Stage σ} {room : Nat} {seen : List Identity} {v : Value} {s : σ}
  {f : Failure} {showing : Showing} {h : Halt}

/-- What comes of making the document. -/
def outcome (a : Stage σ) : Outcome Json :=
  (a.value.document a.room a.seen a.state).1

/-- The document of the second stage is made for that of the first one. -/
inductive Inside : Stage σ → Stage σ → Prop where
  | next {room : Nat} {seen : List Identity} {v u : Value} {s t : σ} {showing : Showing} :
    v.opened s seen = .ok showing →
    showing.Next (Value.document room (v.around seen)) s u t →
    Inside ⟨room + 1, seen, v, s⟩ ⟨room, v.around seen, u, t⟩

/-- There is no way on from the stage. -/
inductive HaltsAt : Stage σ → Halt → Prop where
  | tooDeep {seen : List Identity} {v : Value} {s : σ} :
    HaltsAt ⟨0, seen, v, s⟩ (.failure Value.tooDeep)
  | unseen {room : Nat} {seen : List Identity} {v : Value} {s : σ} {f : Failure} :
    v.opened s seen = .error f → HaltsAt ⟨room + 1, seen, v, s⟩ (.failure f)
  | shown {room : Nat} {seen : List Identity} {v : Value} {s : σ} {showing : Showing} {h : Halt} :
    v.opened s seen = .ok showing →
    showing.HaltsAt (Value.document room (v.around seen)) s h →
    HaltsAt ⟨room + 1, seen, v, s⟩ h

theorem outcome_of_error (seeing : v.opened s seen = .error f) :
    (⟨room + 1, seen, v, s⟩ : Stage σ).outcome = .failed f := by
  have read : (Effect.read (fun s => v.opened s seen) s).1 = (Halt.failure f).outcome := by
    rw [Effect.read, seeing]
    rfl
  exact congrArg Prod.fst (Effect.bind_of_halted read)

theorem outcome_of_ok (seeing : v.opened s seen = .ok showing) :
    (⟨room + 1, seen, v, s⟩ : Stage σ).outcome =
      (showing.document (Value.document room (v.around seen)) s).1 := by
  have read : Effect.read (fun s => v.opened s seen) s = (.returned showing, s) :=
    Effect.read_eq_returned_iff.mpr ⟨seeing, rfl⟩
  exact congrArg Prod.fst (Effect.bind_of_returned read)

theorem haltsAt_of_error (seeing : v.opened s seen = .error f) :
    (⟨room + 1, seen, v, s⟩ : Stage σ).HaltsAt h ↔ .failure f = h := by
  constructor
  · intro halts
    cases halts with
    | unseen seeing' => exact congrArg _ (Except.error.inj (seeing.symm.trans seeing'))
    | shown seeing' _ => cases seeing.symm.trans seeing'
  · rintro rfl
    exact .unseen seeing

theorem haltsAt_of_ok (seeing : v.opened s seen = .ok showing) :
    (⟨room + 1, seen, v, s⟩ : Stage σ).HaltsAt h ↔
      showing.HaltsAt (Value.document room (v.around seen)) s h := by
  refine ⟨fun halts => ?_, .shown seeing⟩
  cases halts with
  | unseen seeing' => cases seeing.symm.trans seeing'
  | shown seeing' halts =>
    cases seeing.symm.trans seeing'
    exact halts

theorem not_inside_of_error (seeing : v.opened s seen = .error f) :
    ¬(⟨room + 1, seen, v, s⟩ : Stage σ).Inside b := by
  intro inside
  cases inside with
  | next seeing' _ => cases seeing.symm.trans seeing'

/-- Making a document halts at once, or with one of those that are made for it. -/
theorem halts_iff_step :
    a.outcome = h.outcome ↔ a.HaltsAt h ∨ ∃ b, a.Inside b ∧ b.outcome = h.outcome := by
  obtain ⟨_ | room, seen, v, s⟩ := a
  · have halts : (⟨0, seen, v, s⟩ : Stage σ).outcome = (Halt.failure Value.tooDeep).outcome := rfl
    rw [halts, Outcome.outcome_inj]
    constructor
    · rintro rfl
      exact .inl .tooDeep
    · rintro (halts | ⟨b, inside, -⟩)
      · cases halts
        rfl
      · cases inside
  · cases seeing : v.opened s seen with
    | error f =>
      have halts : (⟨room + 1, seen, v, s⟩ : Stage σ).outcome = (Halt.failure f).outcome :=
        outcome_of_error seeing
      rw [halts, Outcome.outcome_inj, haltsAt_of_error seeing]
      exact (or_iff_left fun ⟨_, inside, _⟩ => not_inside_of_error seeing inside).symm
    | ok showing =>
      rw [outcome_of_ok seeing, Showing.document_halts_iff, haltsAt_of_ok seeing]
      refine or_congr .rfl ⟨?_, ?_⟩
      · rintro ⟨u, t, next, halts⟩
        exact ⟨_, .next seeing next, halts⟩
      · rintro ⟨b, inside, halts⟩
        cases inside with
        | next seeing' next =>
          cases seeing.symm.trans seeing'
          exact ⟨_, _, next, halts⟩

theorem room_of_inside (inside : a.Inside b) : a.room = b.room + 1 := by
  cases inside
  rfl

/-- Making a document halts exactly where it comes to a stage from which there is no way on. -/
theorem halts_iff : a.outcome = h.outcome ↔ ∃ b, ReflTransGen Inside a b ∧ b.HaltsAt h := by
  constructor
  · intro halts
    -- the stack has less room at every step
    induction left : a.room generalizing a with
    | zero =>
      rcases halts_iff_step.mp halts with here | ⟨b, inside, -⟩
      · exact ⟨a, .refl, here⟩
      · have more := room_of_inside inside
        omega
    | succ room ih =>
      rcases halts_iff_step.mp halts with here | ⟨b, inside, halts⟩
      · exact ⟨a, .refl, here⟩
      · have more := room_of_inside inside
        obtain ⟨c, reached, there⟩ := ih halts (by omega)
        exact ⟨c, reached.head inside, there⟩
  · rintro ⟨b, reached, there⟩
    induction reached using ReflTransGen.head_induction_on with
    | refl => exact halts_iff_step.mpr (.inl there)
    | head inside _ ih => exact halts_iff_step.mpr (.inr ⟨_, inside, ih⟩)

end Stage

/-! ### Rendering -/

namespace Value

variable [Host σ] {v : Value} {s : σ} {h : Halt}

/-- Nothing is rendered of a value: an integer that stands for itself has too many digits; or making the
document comes to a stage from which there is no way on; or there is an integer in the document that has
too many digits. -/
inductive Unrenderable (s : σ) : Value → Halt → Prop where
  | bareInteger {i : Int} : Number.isWritable i = false →
    Unrenderable s (.int i) (.failure unwritable)
  | undocumented {v : Value} {b : Stage σ} {h : Halt} : v.bareText? = none →
    ReflTransGen Stage.Inside ⟨Host.room s, [], v, s⟩ b → b.HaltsAt h → Unrenderable s v h
  | integerInside {v : Value} {document : Json} {t : σ} : v.bareText? = none →
    v.document (Host.room s) [] s = (.returned document, t) → document.isWritable = false →
    Unrenderable s v (.failure unwritable)

theorem print_eq_error_iff {document : Json} {f : Failure} :
    document.print = .error f ↔ document.isWritable = false ∧ f = unwritable := by
  unfold Json.print
  cases document.isWritable <;> simp [eq_comm]

theorem intText?_eq_error_iff {i : Int} {f : Failure} :
    intText? i = .error f ↔ Number.isWritable i = false ∧ f = unwritable := by
  unfold intText?
  cases Number.isWritable i <;> simp [eq_comm]

/-- Of what stands for itself only an integer may have no text. -/
theorem exists_int_of_bareText?_error {f : Failure} (bare : v.bareText? = some (.error f)) :
    ∃ i, v = .int i ∧ intText? i = .error f := by
  cases v with
  | int i => exact ⟨i, rfl, Option.some.inj bare⟩
  | _ => cases bare

theorem render_halts_of_bare {result : Except Failure Text} (bare : v.bareText? = some result) :
    (v.render s).1 = h.outcome ↔ v.Unrenderable s h := by
  unfold render
  rw [bare, Effect.read_halts_iff]
  constructor
  · rintro ⟨f, rfl, rfl⟩
    obtain ⟨i, rfl, failed⟩ := exists_int_of_bareText?_error bare
    obtain ⟨long, rfl⟩ := intText?_eq_error_iff.mp failed
    exact .bareInteger long
  · intro nothing
    cases nothing with
    | bareInteger long =>
      obtain rfl : intText? _ = result := Option.some.inj bare
      exact ⟨unwritable, intText?_eq_error_iff.mpr ⟨long, rfl⟩, rfl⟩
    | undocumented none _ _ | integerInside none _ _ => cases bare.symm.trans none

theorem render_halts_of_document (bare : v.bareText? = none) :
    (v.render s).1 = h.outcome ↔ v.Unrenderable s h := by
  have room : Effect.read (fun s => .ok (Host.room s)) s = (.returned (Host.room s), s) :=
    Effect.read_eq_returned_iff.mpr ⟨rfl, rfl⟩
  have stages : (v.document (Host.room s) [] s).1 = h.outcome ↔ _ :=
    Stage.halts_iff (a := ⟨Host.room s, [], v, s⟩)
  unfold render
  rw [bare]
  dsimp only
  rw [Effect.bind_of_returned room, Effect.bind_halts_iff]
  constructor
  · rintro (halts | ⟨document, t, made, unprinted⟩)
    · obtain ⟨b, reached, there⟩ := stages.mp halts
      exact .undocumented bare reached there
    · obtain ⟨f, failed, rfl⟩ := Effect.read_halts_iff.mp unprinted
      obtain ⟨long, rfl⟩ := print_eq_error_iff.mp failed
      exact .integerInside bare made long
  · intro nothing
    cases nothing with
    | bareInteger _ => cases bare
    | undocumented _ reached there => exact .inl (stages.mpr ⟨_, reached, there⟩)
    | integerInside _ made long =>
      exact .inr ⟨_, _, made, Effect.read_halts_iff.mpr
        ⟨unwritable, print_eq_error_iff.mpr ⟨long, rfl⟩, rfl⟩⟩

/-- Rendering a value halts exactly if nothing is rendered of it. -/
theorem render_halts_iff : (v.render s).1 = h.outcome ↔ v.Unrenderable s h := by
  cases bare : v.bareText? with
  | some result => exact render_halts_of_bare bare
  | none => exact render_halts_of_document bare

end Value

end GuardedConsole
