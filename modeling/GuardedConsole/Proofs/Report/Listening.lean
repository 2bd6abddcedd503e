import Mathlib
import GuardedConsole.Proofs.Report.Running

/-!
# What removers take back

A record is handed to the listeners that are registered, one after another. A remover takes back the
first registration of a listener with the name of its own one. That is as if it took back its own as
long as it `TakesOwn`, and no longer: `removers_take_own_iff`. It does so in particular if no listener is
registered twice.
-/

namespace GuardedConsole.Reporter

variable {κ : Type} {breaks : Text → Option Text} {u : InUse κ} {limit : Option Nat} {place : Nat}
  {r : Registration} {registrations : List Registration} {actions : List (Action κ)} {a : Action κ}

/-! ### Registrations that stand -/

/-- The listeners of the registrations whose own remover has not been called, in their order. -/
def standing (registrations : List Registration) : List Listener :=
  (registrations.filter fun r => !r.withdrawn).map Registration.listener

theorem standing_append (first second : List Registration) :
    standing (first ++ second) = standing first ++ standing second := by
  rw [standing, List.filter_append, List.map_append]
  rfl

theorem standing_cons (r : Registration) (rest : List Registration) :
    standing (r :: rest) = if r.withdrawn then standing rest else r.listener :: standing rest := by
  cases held : r.withdrawn <;> simp [standing, held]

theorem mem_of_standing {l : Listener} (stands : l ∈ standing registrations) :
    l ∈ registrations.map Registration.listener := by
  obtain ⟨r, kept, rfl⟩ := List.mem_map.mp stands
  exact List.mem_map_of_mem (List.mem_of_mem_filter kept)

/-- A place cuts the registrations in two, before and after its own one is withdrawn. -/
theorem cut_at (found : registrations[place]? = some r) :
    registrations = registrations.take place ++ r :: registrations.drop (place + 1) ∧
      registrations.modify place Registration.withdraw =
        registrations.take place ++ r.withdraw :: registrations.drop (place + 1) := by
  obtain ⟨inside, rfl⟩ := List.getElem?_eq_some_iff.mp found
  refine ⟨?_, List.modify_eq_take_cons_drop inside⟩
  rw [← List.drop_eq_getElem_cons inside, List.take_append_drop]

/-! ### The first of a name -/

theorem append_singleton_eq_cons_iff (listeners : List Listener) (l : Listener) :
    listeners ++ [l] = l :: listeners ↔ ∀ l' ∈ listeners, l' = l := by
  induction listeners with
  | nil => simp
  | cons l' listeners ih =>
    rw [List.cons_append, List.cons.injEq, List.forall_mem_cons]
    constructor
    · rintro ⟨rfl, same⟩
      exact ⟨rfl, ih.mp same⟩
    · rintro ⟨rfl, same⟩
      exact ⟨rfl, ih.mpr same⟩

/-- Taking out the first listener of a name leaves the same as taking out a later one exactly if there is
no listener of another name between them. -/
theorem eraseP_eq_iff (first second : List Listener) (l : Listener)
    (alike : ∀ l' ∈ first, l'.name = l.name → l' = l) :
    (first ++ l :: second).eraseP (fun l' => l'.name == l.name) = first ++ second ↔
      ∀ l' ∈ first.dropWhile (fun l' => l'.name != l.name), l'.name = l.name := by
  induction first with
  | nil => simp
  | cons l' first ih =>
    obtain ⟨same, others⟩ := List.forall_mem_cons.mp alike
    by_cases named : l'.name = l.name
    · -- `l'` is taken out: what is left is the same only if all that follow up to `l` are like it
      obtain rfl := same named
      have equal : (∀ l ∈ l' :: first, l.name = l'.name) ↔ ∀ l ∈ first, l = l' := by
        rw [List.forall_mem_cons]
        constructor
        · exact fun names l listed => others l listed (names.2 l listed)
        · exact fun equal => ⟨rfl, fun l listed => congrArg Listener.name (equal l listed)⟩
      rw [List.dropWhile_cons_of_neg (by simp), equal, ← append_singleton_eq_cons_iff,
        List.cons_append, List.eraseP_cons_of_pos (by simp), List.append_cons,
        List.append_left_inj]
    · rw [List.dropWhile_cons_of_pos (by simpa using named), List.cons_append, List.cons_append,
        List.eraseP_cons_of_neg (by simpa using named), List.cons.injEq, ← ih others]
      exact and_iff_right rfl

/-! ### One step -/

/-- The names of the listeners that an action registers. -/
def Action.registered : Action κ → List Text
  | .listen name => [name]
  | _ => []

namespace InUse

/-- The listeners of all registrations, those that were withdrawn included. -/
def listeners (u : InUse κ) : List Listener :=
  u.registrations.map Registration.listener

theorem listeners_step (u : InUse κ) (a : Action κ) :
    (u.step breaks a).listeners = u.listeners ++ a.registered.map (called breaks) := by
  cases a with
  | record e context => exact (List.append_nil _).symm
  | clear => exact (List.append_nil _).symm
  | listen name => exact List.map_append
  | remove place =>
    show (u.step breaks (.remove place)).listeners = u.listeners ++ []
    rw [List.append_nil, step]
    split
    · rename_i r found
      obtain ⟨whole, after⟩ := cut_at found
      show (u.registrations.modify place Registration.withdraw).map Registration.listener = _
      rw [after, listeners, List.map_append, List.map_cons]
      conv_rhs => rw [whole, List.map_append, List.map_cons]
      rfl
    · rfl

theorem listeners_run (u : InUse κ) (actions : List (Action κ)) :
    (u.run breaks actions).listeners =
      u.listeners ++ (actions.flatMap Action.registered).map (called breaks) := by
  induction actions generalizing u with
  | nil => exact (List.append_nil _).symm
  | cons a actions ih =>
    rw [List.flatMap_cons, List.map_append, ← List.append_assoc, ← listeners_step]
    exact ih (u.step breaks a)

/-- Whether a listener breaks goes by its name. -/
def Named (breaks : Text → Option Text) (u : InUse κ) : Prop :=
  ∀ l ∈ u.listeners, l = called breaks l.name

/-- A record is handed to the listeners whose registrations stand. -/
def Faithful (u : InUse κ) : Prop :=
  u.reporter.listeners = standing u.registrations

/-- What the remover at a place takes back can be taken for its own registration: from the first one
that stands under its name up to its own there are none of other names; and if it has been called
before, none stands under its name. -/
def TakesOwn (u : InUse κ) (place : Nat) : Prop :=
  ∀ r, u.registrations[place]? = some r →
    if r.withdrawn then ∀ l ∈ standing u.registrations, l.name ≠ r.listener.name
    else ∀ l ∈ (standing (u.registrations.take place)).dropWhile
        (fun l => l.name != r.listener.name), l.name = r.listener.name

theorem Faithful.step (faithful : u.Faithful) (other : ∀ place, a ≠ .remove place) :
    (u.step breaks a).Faithful := by
  cases a with
  | record e context =>
    unfold Faithful InUse.step recordNamed
    dsimp only
    cases takenName? context <;> exact faithful
  | clear => exact faithful
  | listen name =>
    unfold Faithful InUse.step listen
    dsimp only
    rw [standing_append, ← faithful]
    rfl
  | remove place => exact (other place rfl).elim

/-- Listeners of one name are equal, as only the name says whether they break. -/
theorem Named.alike (named : u.Named breaks) (found : u.registrations[place]? = some r) {l : Listener}
    (stands : l ∈ standing (u.registrations.take place)) (equal : l.name = r.listener.name) :
    l = r.listener := by
  have inside : l ∈ u.listeners :=
    List.map_subset _ (List.take_subset _ _) (mem_of_standing stands)
  have own : r.listener ∈ u.listeners := List.mem_map_of_mem (List.mem_of_getElem? found)
  rw [named l inside, named _ own, equal]

theorem Faithful.remove_iff_taken (faithful : u.Faithful) (found : u.registrations[place]? = some r) :
    (u.step breaks (.remove place)).Faithful ↔
      (standing u.registrations).eraseP (fun l => l.name == r.listener.name) =
        standing (u.registrations.take place) ++ standing (u.registrations.drop (place + 1)) := by
  obtain ⟨-, after⟩ := cut_at found
  unfold Faithful at faithful
  simp only [Faithful, InUse.step, found, unlisten, faithful]
  rw [after, standing_append, standing_cons, if_pos (show r.withdraw.withdrawn = true from rfl)]

theorem takesOwn_iff (found : u.registrations[place]? = some r) :
    u.TakesOwn place ↔
      if r.withdrawn then ∀ l ∈ standing u.registrations, l.name ≠ r.listener.name
      else ∀ l ∈ (standing (u.registrations.take place)).dropWhile
          (fun l => l.name != r.listener.name), l.name = r.listener.name := by
  refine ⟨fun takes => takes r found, fun takes r' found' => ?_⟩
  rw [found] at found'
  cases found'
  exact takes

/-- Calling a remover leaves the listeners whose registrations stand exactly if it takes its own. -/
theorem Faithful.remove_iff (faithful : u.Faithful) (named : u.Named breaks) (place : Nat) :
    (u.step breaks (.remove place)).Faithful ↔ u.TakesOwn place := by
  cases found : u.registrations[place]? with
  | none =>
    have same : u.step breaks (.remove place) = u := by
      rw [InUse.step, found]
    rw [same]
    refine iff_of_true faithful fun r found' => ?_
    rw [found] at found'
    cases found'
  | some r =>
    obtain ⟨whole, -⟩ := cut_at found
    rw [faithful.remove_iff_taken found, takesOwn_iff found]
    cases held : r.withdrawn with
    | true =>
      -- nothing of its own is left to be taken, so that all has to stay
      have same : standing u.registrations =
          standing (u.registrations.take place) ++ standing (u.registrations.drop (place + 1)) := by
        conv_lhs => rw [whole, standing_append, standing_cons, if_pos held]
      rw [← same, List.eraseP_eq_self_iff, if_pos rfl]
      simp only [beq_iff_eq, ne_eq]
    | false =>
      have same : standing u.registrations =
          standing (u.registrations.take place) ++
            r.listener :: standing (u.registrations.drop (place + 1)) := by
        conv_lhs => rw [whole, standing_append, standing_cons, if_neg (by simp [held])]
      have alike : ∀ l ∈ standing (u.registrations.take place),
          l.name = r.listener.name → l = r.listener := fun _ stands => named.alike found stands
      rw [same, eraseP_eq_iff _ _ _ alike, if_neg Bool.false_ne_true]

/-- A remover takes its own registration if no two listeners have a name in common. -/
theorem takesOwn_of_distinct (distinct : (u.listeners.map Listener.name).Nodup) (place : Nat) :
    u.TakesOwn place := by
  intro r found
  obtain ⟨whole, -⟩ := cut_at found
  have names : u.listeners.map Listener.name =
      ((u.registrations.take place).map Registration.listener).map Listener.name ++
        r.listener.name ::
          ((u.registrations.drop (place + 1)).map Registration.listener).map Listener.name := by
    rw [listeners]
    conv_lhs => rw [whole]
    simp
  rw [names, List.nodup_append] at distinct
  obtain ⟨-, later, apart⟩ := distinct
  have front {l : Listener} (stands : l ∈ standing (u.registrations.take place)) :
      l.name ≠ r.listener.name :=
    apart _ (List.mem_map_of_mem (mem_of_standing stands)) _ List.mem_cons_self
  split
  · rename_i held
    intro l stands
    rw [whole, standing_append, standing_cons, if_pos held] at stands
    rcases List.mem_append.mp stands with before | after
    · exact front before
    · intro same
      have again : r.listener.name ∈
          ((u.registrations.drop (place + 1)).map Registration.listener).map Listener.name := by
        rw [← same]
        exact List.mem_map_of_mem (mem_of_standing after)
      exact (List.nodup_cons.mp later).1 again
  · have none : (standing (u.registrations.take place)).dropWhile
        (fun l => l.name != r.listener.name) = [] :=
      List.dropWhile_eq_nil_iff.mpr fun l stands => by simpa using front stands
    rw [none]
    exact List.forall_mem_nil _

end InUse

/-! ### Runs -/

/-- A reporter without listeners, after some actions. -/
def reached (breaks : Text → Option Text) (limit : Option Nat) (actions : List (Action κ)) : InUse κ :=
  InUse.run breaks { reporter := { limit } } actions

theorem reached_concat (actions : List (Action κ)) (a : Action κ) :
    reached breaks limit (actions ++ [a]) = (reached breaks limit actions).step breaks a := by
  rw [reached, InUse.run, List.foldl_append]
  rfl

theorem listeners_reached (actions : List (Action κ)) :
    (reached breaks limit actions).listeners =
      (actions.flatMap Action.registered).map (called breaks) :=
  InUse.listeners_run _ actions

theorem named_reached (actions : List (Action κ)) :
    (reached breaks limit actions).Named breaks := by
  intro l listed
  rw [listeners_reached] at listed
  obtain ⟨name, -, rfl⟩ := List.mem_map.mp listed
  rfl

/-- As long as removers take their own registrations, records go to the listeners that stand. -/
theorem faithful_reached (own : ∀ before place, before ++ [.remove place] <+: actions →
      (reached breaks limit before).TakesOwn place) (before : List (Action κ))
    (begins : before <+: actions) : (reached breaks limit before).Faithful := by
  induction before using List.reverseRecOn with
  | nil => rfl
  | append_singleton before a ih =>
    have faithful := ih ((List.prefix_append before [a]).trans begins)
    rw [reached_concat]
    cases a with
    | remove place =>
      exact (faithful.remove_iff (named_reached before) place).mpr (own before place begins)
    | record _ _ | clear | listen _ => exact faithful.step (by simp)

/-- After every run of a reporter a record is handed to the listeners whose own removers have not been
called, once for each registration and in the order of the registrations, exactly as long as each call of
a remover takes its own. Removers do so throughout if no listener is registered twice. Listeners that
break make no difference as long as the complaints about them can be printed. -/
theorem removers_take_own_iff (breaks : Text → Option Text) (limit : Option Nat)
    (actions : List (Action κ)) :
    (∀ before : List (Action κ), (reached breaks limit before).Faithful →
      ∀ e context, takenName? context = none →
        let entry := Record.ofReport e context
        let stand := standing (reached breaks limit before).registrations
        ((reached breaks limit before).reporter.recordNamed e context).1 =
          (deliver entry stand).map (fun deliveries => (entry, deliveries)) ∧
        ((∀ l ∈ stand, (l.receive entry).print = .ok ()) →
          deliver entry stand = .ok (stand.map fun l => l.receive entry))) ∧
    ((∀ before, before <+: actions → (reached breaks limit before).Faithful) ↔
      ∀ before place, before ++ [.remove place] <+: actions →
        (reached breaks limit before).TakesOwn place) ∧
    ((actions.flatMap Action.registered).Nodup →
      ∀ before, before <+: actions → (reached breaks limit before).Faithful) := by
  refine ⟨?_, ⟨?_, faithful_reached⟩, ?_⟩
  · intro before faithful e context free entry stand
    refine ⟨?_, deliver_of_printable⟩
    rw [recordNamed, free]
    show (deliver entry (reached breaks limit before).reporter.listeners).map _ = _
    rw [faithful]
  · intro faithful before place begins
    have earlier := faithful before ((List.prefix_append before _).trans begins)
    have later := faithful _ begins
    rw [reached_concat] at later
    exact (earlier.remove_iff (named_reached before) place).mp later
  · intro distinct
    refine faithful_reached fun before place begins => InUse.takesOwn_of_distinct ?_ place
    obtain ⟨after, rfl⟩ := begins
    rw [List.append_assoc, List.flatMap_append] at distinct
    have names : (reached breaks limit before).listeners.map Listener.name =
        before.flatMap Action.registered := by
      rw [listeners_reached, List.map_map]
      exact List.map_id _
    rw [names]
    exact distinct.of_append_left

/-- Not every remover takes back its own registration, though no listener breaks: if one is registered
twice, the first of its removers takes back the second registration when it is called again, and a record
is not handed to the listener any more. -/
theorem second_call_takes_other :
    ¬∀ limit actions (e : Report),
      let u := reached (fun _ => none) limit actions
      let entry := Record.ofReport e []
      (u.reporter.recordNamed e []).1 =
        .ok (entry, (standing u.registrations).map fun l => l.receive entry) := by
  intro handed
  let e : Report := { kind := .badValue, message := [] }
  let entry := Record.ofReport e []
  have twice := handed none [.listen "a".toText, .listen "a".toText, .remove 0, .remove 0] e
  have heard : (.ok (entry, []) : Except Failure (Record × List Delivery)) =
      .ok (entry, [.heard "a".toText entry.message]) := twice
  cases heard

end GuardedConsole.Reporter
