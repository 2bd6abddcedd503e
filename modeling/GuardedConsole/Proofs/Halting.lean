import GuardedConsole.Outcome

/-!
# Effects that halt

An effect that returns nothing halts: it fails, or it never ends. Effects that come one after another
halt where the first of them does that halts: `bind_halts_iff` says so for two, and `mapM_halts_iff` for
those that are made of the elements of a list.
-/

namespace GuardedConsole

/-- Why nothing is returned. -/
inductive Halt where
  | failure (f : Failure)
  | endless

def Halt.outcome {α : Type} : Halt → Outcome α
  | .failure f => .failed f
  | .endless => .unfinished

namespace Outcome

variable {α : Type} {a : α} {h h' : Halt}

theorem returned_or_halted (o : Outcome α) : (∃ a, o = .returned a) ∨ ∃ h : Halt, o = h.outcome := by
  cases o with
  | returned a => exact .inl ⟨a, rfl⟩
  | failed f => exact .inr ⟨.failure f, rfl⟩
  | unfinished => exact .inr ⟨.endless, rfl⟩

theorem returned_ne_outcome : returned a ≠ h.outcome := by
  cases h <;> nofun

theorem outcome_inj : (h.outcome : Outcome α) = h'.outcome ↔ h = h' := by
  cases h <;> cases h' <;> simp [Halt.outcome]

/-- What comes of a result that is at hand halts only if that is a failure. -/
theorem ofExcept_eq_outcome_iff {result : Except Failure α} :
    ofExcept result = h.outcome ↔ ∃ f, result = .error f ∧ h = .failure f := by
  cases result with
  | ok a => simp [ofExcept, returned_ne_outcome]
  | error f => cases h <;> simp [ofExcept, Halt.outcome, eq_comm]

end Outcome

namespace Effect

variable {σ α β : Type} {e : Effect σ α} {next : α → Effect σ β} {s s' : σ} {a : α}
  {h : Halt}

theorem bind_of_returned (first : e s = (.returned a, s')) : (e >>= next) s = next a s' := by
  show Effect.bind e next s = _
  rw [Effect.bind, first]

theorem bind_of_halted (first : (e s).1 = h.outcome) :
    (e >>= next) s = (h.outcome, (e s).2) := by
  show Effect.bind e next s = _
  unfold Effect.bind
  generalize e s = ran at first ⊢
  obtain ⟨outcome, t⟩ := ran
  obtain rfl : outcome = h.outcome := first
  cases h <;> rfl

theorem bind_halts_iff :
    ((e >>= next) s).1 = h.outcome ↔
      (e s).1 = h.outcome ∨ ∃ a t, e s = (.returned a, t) ∧ (next a t).1 = h.outcome := by
  constructor
  · intro halts
    rcases (e s).1.returned_or_halted with ⟨a, first⟩ | ⟨h', first⟩
    · have first : e s = (.returned a, (e s).2) := Prod.ext first rfl
      rw [bind_of_returned first] at halts
      exact .inr ⟨a, _, first, halts⟩
    · rw [bind_of_halted first, Outcome.outcome_inj] at halts
      exact .inl (halts ▸ first)
  · rintro (first | ⟨a, t, first, second⟩)
    · rw [bind_of_halted first]
    · rw [bind_of_returned first, second]

/-- To change a result does not make it halt. -/
theorem bind_pure_halts_iff {change : α → β} :
    ((e >>= fun a => pure (change a)) s).1 = h.outcome ↔ (e s).1 = h.outcome := by
  rw [bind_halts_iff]
  exact or_iff_left fun ⟨_, _, _, last⟩ => Outcome.returned_ne_outcome last

theorem read_halts_iff {look : σ → Except Failure α} :
    (read look s).1 = h.outcome ↔ ∃ f, look s = .error f ∧ h = .failure f :=
  Outcome.ofExcept_eq_outcome_iff

theorem read_eq_returned_iff {look : σ → Except Failure α} :
    read look s = (.returned a, s') ↔ look s = .ok a ∧ s = s' := by
  unfold read
  cases look s with
  | ok a' => simp [Outcome.ofExcept]
  | error f => simp [Outcome.ofExcept]

instance : LawfulMonad (Effect σ) :=
  .mk' _
    (fun e => by
      funext s
      show Effect.bind e Effect.pure s = e s
      unfold Effect.bind
      rcases e s with ⟨_ | _ | _, t⟩ <;> rfl)
    (fun _ _ => rfl)
    (fun e next last => by
      funext s
      show Effect.bind (Effect.bind e next) last s = Effect.bind e (fun a => Effect.bind (next a) last) s
      unfold Effect.bind
      rcases e s with ⟨_ | _ | _, t⟩ <;> rfl)

theorem mapM_of_halted {g : α → Effect σ β} {before after : List α} {x : α} {ys : List β}
    (returned : before.mapM g s = (.returned ys, s')) (halts : (g x s').1 = h.outcome) :
    ((before ++ x :: after).mapM g s).1 = h.outcome := by
  rw [List.mapM_append, bind_of_returned returned, List.mapM_cons]
  exact bind_halts_iff.mpr (.inl (bind_halts_iff.mpr (.inl halts)))

/-- A mapping halts where it does so for an element after it has returned for all those before. -/
theorem mapM_halts_iff {g : α → Effect σ β} {xs : List α} :
    ((xs.mapM g) s).1 = h.outcome ↔
      ∃ before x after ys t, xs = before ++ x :: after ∧ before.mapM g s = (.returned ys, t) ∧
        (g x t).1 = h.outcome := by
  constructor
  · intro halts
    induction xs generalizing s with
    | nil => exact (Outcome.returned_ne_outcome halts).elim
    | cons x xs ih =>
      rw [List.mapM_cons, bind_halts_iff] at halts
      rcases halts with first | ⟨y, t, first, later⟩
      · exact ⟨[], x, xs, [], s, rfl, rfl, first⟩
      · obtain ⟨before, x', after, ys, t', rfl, returned, halts⟩ :=
          ih (bind_pure_halts_iff.mp later)
        refine ⟨x :: before, x', after, y :: ys, t', rfl, ?_, halts⟩
        rw [List.mapM_cons, bind_of_returned first, bind_of_returned returned]
        rfl
  · rintro ⟨before, x, after, ys, t, rfl, returned, halts⟩
    exact mapM_of_halted returned halts

end Effect

end GuardedConsole
