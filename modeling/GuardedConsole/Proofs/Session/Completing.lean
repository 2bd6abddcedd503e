import GuardedConsole.Proofs.Interpreter.Completing
import GuardedConsole.Proofs.Session.Dispatch

/-!
# Completions for the calendar

Completion leaves checks out that an offer may fail. The interpreter for the calendar lists only
methods that exist, so that in every world all its offers are accepted: `Offered.accepted`.
-/

namespace GuardedConsole

open Calendar Interpreter Screening

variable {w : World} {offer : Offer} {scope name : Text} {v : Value}

namespace Session

/-- The path of a method of the calendar's store. -/
def storePath (m : StoreMethod) : Path :=
  ⟨"calendar".toText, ["event_store".toText, m.form.1.toText], by simp⟩

theorem planCall_storePath (w : World) (m : StoreMethod) (arguments : List Value) :
    forCalendar.planCall World.host w (storePath m) arguments =
      .ok (.invoke (.method .eventStore m.form.1.toText) arguments) := by
  cases m <;> rfl

/-- The commands that call the methods which are listed. -/
theorem listed_commands_clean :
    (∀ m ∈ World.calendarCommands, (methodPath m).members.all Command.isName = true ∧
        findViolation (Offer.call (methodPath m)).command = none) ∧
      (∀ m ∈ World.storeCommands, (storePath m).members.all Command.isName = true ∧
        findViolation (Offer.call (storePath m)).command = none) ∧
      ∀ m ∈ World.historyCommands, m ≠ .snapshot ∧
        (historyPath m).members.all Command.isName = true ∧
        findViolation (Offer.call (historyPath m)).command = none := by
  decide +kernel

end Session

namespace Interpreter

open Session

/-- Only the calendar and the list of commands stand for a value. -/
theorem stands_forCalendar (stands : forCalendar.Stands World.host w name v) :
    name = "calendar".toText ∧ v = .calendar ∨ name = "help".toText ∧ v = .help := by
  have entry := Table.mem_of_find? stands.found
  simp only [forCalendar, List.mem_cons, Prod.mk.injEq, List.not_mem_nil, or_false] at entry
  rcases entry with calendar | ⟨rfl, _⟩ | help
  · exact .inl calendar
  · exact absurd (List.mem_singleton_self _) stands.unlisted
  · exact .inr help

theorem listed_forCalendar {names : List Text}
    (listed : forCalendar.allowed.find? scope = some names) :
    scope = "calendar".toText ∧ names = World.calendarCommands.map (fun m => m.form.1.toText) ∨
      scope = "event_store".toText ∧ names = World.storeCommands.map (fun m => m.form.1.toText) ∨
      scope = "state".toText ∧ names = World.historyCommands.map (fun m => m.form.1.toText) ∨
      scope = "help".toText ∧ names = ["help".toText] := by
  have entry := Table.mem_of_find? listed
  simpa [forCalendar, World.commandNames] using entry

theorem not_has_help : ¬Has World.host w .help name := by
  rintro ⟨_, member, found⟩
  cases found

/-- The list of commands is not reached by way of the calendar. -/
theorem not_has_calendar_help : ¬Has World.host w .calendar "help".toText := by
  rintro ⟨_, member, found⟩
  cases found

/-- A call of a method that can be planned, and whose names are words, is fit. -/
theorem fit_of_planCall {path : Path} {action : Action} (nested : path.members ≠ [])
    (root : path.root = "calendar".toText) (words : path.members.all Command.isName = true)
    (planned : forCalendar.planCall World.host w path [] = .ok action) :
    forCalendar.Fit World.host w (.call path) := by
  obtain ⟨target, addressed, callable, noClass, _⟩ := exists_planCall_iff.mp ⟨_, planned⟩
  obtain ⟨_, members, short⟩ := path
  subst root
  have word : Command.isName "calendar".toText = true := by decide
  have named : Path.WellNamed ⟨"calendar".toText, members, short⟩ :=
    List.forall_mem_cons.mpr ⟨word, List.all_eq_true.mp words⟩
  cases members with
  | nil => exact absurd rfl nested
  | cons first rest => exact ⟨named, target, addressed, callable, noClass⟩

/-- In every world, all that is offered for the calendar is accepted. -/
theorem Offered.accepted (offered : forCalendar.Offered World.host w offer) :
    forCalendar.Accepted World.host w offer := by
  refine (offered.accepted_iff forCalendar_wellNamed).mpr ?_
  obtain ⟨methods, storeMethods, historyMethods⟩ := listed_commands_clean
  cases offered with
  | construct found constructed =>
    obtain rfl := List.mem_singleton.mp constructed
    cases found
    exact ⟨by decide +kernel, .eventClass, ⟨rfl, by simp⟩, rfl⟩
  | root stands =>
    refine ⟨?_, trivial⟩
    rcases stands_forCalendar stands with ⟨rfl, _⟩ | ⟨rfl, _⟩ <;> decide +kernel
  | call stands callable =>
    rcases stands_forCalendar stands with ⟨_, rfl⟩ | ⟨rfl, _⟩
    · cases callable
    · have listed : forCalendar.isAllowed "help".toText "help".toText = true := by decide
      exact ⟨by decide +kernel, listed⟩
  | own stands allowed inside has =>
    rcases stands_forCalendar stands with ⟨rfl, rfl⟩ | ⟨_, rfl⟩
    · cases allowed
      obtain ⟨m, listed, rfl⟩ := List.mem_map.mp inside
      obtain ⟨words, clean⟩ := methods m listed
      exact ⟨clean, fit_of_planCall (List.cons_ne_nil _ _) rfl words (planCall_methodPath w m [])⟩
    · exact absurd has not_has_help
  | deeper stands allowed other inside has =>
    rcases stands_forCalendar stands with ⟨rfl, rfl⟩ | ⟨_, rfl⟩
    · rcases listed_forCalendar allowed with ⟨same, _⟩ | ⟨rfl, rfl⟩ | ⟨rfl, rfl⟩ | ⟨rfl, _⟩
      · exact absurd same other
      · obtain ⟨m, listed, rfl⟩ := List.mem_map.mp inside
        obtain ⟨words, clean⟩ := storeMethods m listed
        exact ⟨clean, fit_of_planCall (List.cons_ne_nil _ _) rfl words (planCall_storePath w m [])⟩
      · obtain ⟨m, listed, rfl⟩ := List.mem_map.mp inside
        obtain ⟨callable, words, clean⟩ := historyMethods m listed
        exact ⟨clean, fit_of_planCall (List.cons_ne_nil _ _) rfl words
          (planCall_historyPath w callable)⟩
      · exact absurd has not_has_calendar_help
    · exact absurd has not_has_help

end Interpreter

end GuardedConsole
