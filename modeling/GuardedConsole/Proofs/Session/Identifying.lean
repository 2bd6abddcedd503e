import GuardedConsole.Proofs.Calendar.Identity
import GuardedConsole.Proofs.Session.Running

/-!
# Ids in a session

After every session an event that is added without an id comes behind all others, unless its number
is taken by an event that was named like this (`add_unnamed_appends_unless_taken`); while no command
does so, no number is taken. An event that is added with an id is found under the text of the id, and
if the id is a number it is not found under the id itself (`added_event_found_under_shown_id`).
-/

namespace GuardedConsole.Session

open Time Calendar EventStore

variable {start now : Moment} {commands : List (Moment × Text)} {data id answer : Value}
  {entries : Entries} {c' : Calendar}

/-- No command passes data that give an event one of the numbered ids. -/
def Unclaimed (commands : List (Moment × Text)) : Prop :=
  ∀ command ∈ commands, ∀ v, Passes command.1 command.2 v → ¬Event.ClaimsNumber v

/-- While no command claims a number, all numbered ids are below the next number, now and in all
states that can be undone or redone. -/
theorem numbered_run (start : Moment) (unclaimed : Unclaimed commands) :
    Throughout Numbered (reached start commands).calendar :=
  run_keeps (fun v => ¬Event.ClaimsNumber v)
    (fun numbered given becomes => numbered.becomes numbered_invariant given becomes)
    (Throughout.fresh numbered_invariant start) unclaimed

/-- What is said of the stores that are built from data holds after every session. -/
theorem built_reached (start : Moment) (commands : List (Moment × Text)) :
    (reached start commands).calendar.store.Built := by
  have throughout : Throughout (fun _ events => ∃ s : EventStore, s.Built ∧ s.events = events)
      (reached start commands).calendar :=
    run_keeps (fun _ => True)
      (fun built plain becomes =>
        built.becomes built_invariant (fun v listed => (plain v listed).1) becomes)
      (Throughout.fresh built_invariant start) fun _ _ _ _ => trivial
  obtain ⟨s, built, same⟩ := throughout.store
  generalize (reached start commands).calendar.store = stored at same
  obtain ⟨events, number⟩ := stored
  cases same
  exact .restore (.empty number) built

theorem exists_ok_of_isOk {change : Change} (succeeded : change.1.isOk = true) :
    ∃ v, change = (.ok v, change.2) := by
  obtain ⟨f | v, c⟩ := change
  · cases succeeded
  · exact ⟨v, rfl⟩

/-! ### Adding without an id -/

/-- In every session, a call that adds an event without an id gives it the next number as its id. If
no event has this id, the event comes behind all others; otherwise it takes the place of the one that
has it. All other entries stay as they are. While no command has claimed a number, the id is new. -/
theorem add_unnamed_appends_unless_taken (plain : data.IsData)
    (described : Entries.ofOptionalData data = .ok entries) (unnamed : Event.Unnamed entries)
    (added : (reached start commands).calendar.call now .addEvent [data] = (.ok answer, c') ∨
      (reached start commands).calendar.callStore now .add [data] = (.ok answer, c')) :
    let s := (reached start commands).calendar.store
    ∃ e, answer = .event e ∧ e.id = Event.numberedId s.nextNumber ∧
      (e.id ∉ s.events.names → c'.store.events = s.events ++ [(e.id, e)]) ∧
      (e.id ∈ s.events.names → ∃ before lost after, s.events = before ++ (e.id, lost) :: after ∧
        c'.store.events = before ++ (e.id, e) :: after) ∧
      (Unclaimed commands → e.id ∉ s.events.names) := by
  intro s
  have consistent : Consistent s.events := (sound_run (sound_fresh start) commands).store
  obtain ⟨e, made, answered, stored⟩ :
      ∃ e, (s.add now data).1 = .ok e ∧ answer = .event e ∧ c'.store = (s.add now data).2 := by
    rcases added with added | added
    · rw [call_addEvent] at added
      obtain ⟨e, made, answered, rfl⟩ := change_event_eq_ok added
      exact ⟨e, made, answered, rfl⟩
    · rw [callStore_add] at added
      obtain ⟨e, made, answered, rfl⟩ := change_event_eq_ok added
      exact ⟨e, made, answered, rfl⟩
  have whole : s.add now data = (.ok e, c'.store) := Prod.ext made stored.symm
  obtain ⟨named, appended, replaced⟩ := add_unnamed consistent plain described unnamed whole
  refine ⟨e, answered, named, appended, replaced, fun unclaimed => ?_⟩
  rw [named]
  exact (numbered_run start unclaimed).store.fresh

/-- Data without an id. -/
def review : Value :=
  .dict [(.text "title".toText, .text "Review".toText), (.text "start".toText, .moment noon)]

theorem review_isData : review.IsData :=
  Entries.AllData.dict (by
    simp only [Entries.allData_cons]
    exact ⟨⟨.text _, .text _⟩, ⟨.text _, .moment _⟩, Entries.allData_nil⟩)

theorem unnamed_review : ∃ entries, Entries.ofOptionalData review = .ok entries ∧
    Event.Unnamed entries :=
  ⟨_, rfl, fun _ given => nomatch given⟩

/-- The first event that is added gets the first number. -/
theorem add_review_first :
    ∃ e c', (reached noon []).calendar.call noon .addEvent [review] = (.ok (.event e), c') ∧
      c'.store.events = [("evt-1".toText, e)] := by
  have succeeded : ((reached noon []).calendar.call noon .addEvent [review]).1.isOk = true := by
    decide +kernel
  obtain ⟨entries, described, unnamed⟩ := unnamed_review
  obtain ⟨v, added⟩ := exists_ok_of_isOk succeeded
  obtain ⟨e, rfl, named, appended, _, fresh⟩ :=
    add_unnamed_appends_unless_taken review_isData described unnamed (.inl added)
  have whole := appended (fresh (List.forall_mem_nil _))
  rw [named] at whole
  exact ⟨e, _, added, whole⟩

/-- An event is named like the first numbered one. -/
def claimed : List (Moment × Text) :=
  [(noon, "calendar.add_event(\x7bid: \"evt-1\", start: \"2024-05-02\"\x7d)".toText)]

/-- Adding an event without an id may lose another event. -/
theorem add_unnamed_loses_claimed :
    ¬∀ start commands now data entries answer c', data.IsData →
      Entries.ofOptionalData data = .ok entries → Event.Unnamed entries →
      (reached start commands).calendar.call now .addEvent [data] = (.ok answer, c') →
      ∃ e, c'.store.events = (reached start commands).calendar.store.events ++ [(e.id, e)] := by
  intro appends
  let change := (reached noon claimed).calendar.call noon .addEvent [review]
  have evaluated : change.1.isOk = true ∧
      (reached noon claimed).calendar.store.events.length = 1 ∧
      change.2.store.events.length = 1 := by
    decide +kernel
  obtain ⟨succeeded, before, after⟩ := evaluated
  obtain ⟨v, added⟩ := exists_ok_of_isOk succeeded
  obtain ⟨entries, described, unnamed⟩ := unnamed_review
  obtain ⟨e, appended⟩ := appends noon claimed noon review entries v _ review_isData described
    unnamed added
  rw [appended, List.length_append, before] at after
  cases after

/-! ### Finding what was added -/

/-- In every session, an event that is added with an id stands under the text of the id: it is found,
changed and deleted under it, and under all other keys is found what was found before. If the id is a
number, nothing is found, changed or deleted under the id as it was given. -/
theorem added_event_found_under_shown_id (plain : data.IsData)
    (described : Entries.ofOptionalData data = .ok entries)
    (given : entries.get? "id" = some id) (counts : IsId id)
    (added : (reached start commands).calendar.call now .addEvent [data] = (.ok answer, c')) :
    ∃ e, answer = .event e ∧ e.id = id.shown ∧ FoundUnder c' (.text id.shown) e ∧
      (∀ key, key ≠ .text id.shown →
        c'.store.get key = (reached start commands).calendar.store.get key) ∧
      ((∀ t, id ≠ .text t) → Missed c' id) := by
  have sound : (reached start commands).calendar.Sound := sound_run (sound_fresh start) commands
  rw [call_addEvent] at added
  obtain ⟨e, made, answered, rfl⟩ := change_event_eq_ok added
  have whole : (reached start commands).calendar.store.add now data =
      (.ok e, ((reached start commands).calendar.store.add now data).2) := Prod.ext made rfl
  obtain ⟨named, titled, listed, others⟩ :=
    add_named plain described given counts.isTruthy whole
  have found := foundUnder_id (sound.snapshot.withStore (sound.store.add now plain)).store listed
    titled
  rw [named] at found others
  exact ⟨e, answered, named, found, others, fun number => missed_of_number _ counts number⟩

/-- Data with an id. -/
def reviewNamed (id : Value) : Value :=
  .dict [(.text "id".toText, id), (.text "start".toText, .moment noon)]

theorem isData_reviewNamed (plain : id.IsData) : (reviewNamed id).IsData :=
  Entries.AllData.dict (by
    simp only [Entries.allData_cons]
    exact ⟨⟨.text _, plain⟩, ⟨.text _, .moment _⟩, Entries.allData_nil⟩)

/-- An event that is named by a text is found under it. -/
theorem textually_named_found :
    ∃ e c', (reached noon claimed).calendar.call noon .addEvent [reviewNamed (.text "r".toText)] =
        (.ok (.event e), c') ∧ FoundUnder c' (.text "r".toText) e := by
  have succeeded :
      ((reached noon claimed).calendar.call noon .addEvent [reviewNamed (.text "r".toText)]).1.isOk = true := by
    decide +kernel
  have counts : IsId (.text "r".toText) := .text (by decide)
  obtain ⟨v, added⟩ := exists_ok_of_isOk succeeded
  obtain ⟨e, rfl, _, found, _⟩ :=
    added_event_found_under_shown_id (isData_reviewNamed (.text _)) rfl rfl counts added
  exact ⟨e, _, added, found⟩

/-- An event that is added with an id is not always found under it. -/
theorem numerically_named_missed :
    ¬∀ start commands now data entries id answer c', data.IsData →
      Entries.ofOptionalData data = .ok entries → entries.get? "id" = some id → IsId id →
      (reached start commands).calendar.call now .addEvent [data] = (.ok answer, c') →
      ∃ e, FoundUnder c' id e := by
  intro finds
  have succeeded :
      ((reached noon []).calendar.call noon .addEvent [reviewNamed (.int 5)]).1.isOk = true := by
    decide +kernel
  have counts : IsId (.int 5) := .int (by decide)
  obtain ⟨v, added⟩ := exists_ok_of_isOk succeeded
  obtain ⟨e, found⟩ := finds noon [] noon (reviewNamed (.int 5)) _ (.int 5) v _
    (isData_reviewNamed (.int 5)) rfl rfl counts added
  have nothing := missed_of_number
    ((reached noon []).calendar.call noon .addEvent [reviewNamed (.int 5)]).2 counts fun _ other =>
      nomatch other
  have event := found.get noon
  rw [nothing.get noon] at event
  cases event

end GuardedConsole.Session
