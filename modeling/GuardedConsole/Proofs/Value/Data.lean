import GuardedConsole.Command.Grammar
import GuardedConsole.Value.Dictionary
import GuardedConsole.Proofs.Number.Digits

/-!
# Plain data

`Value.IsData` are the values without members of their own that can be called: nothing, numbers,
texts, moments, and lists and dictionaries of them. `isData_of_read` shows that a literal denotes
such a value, `isData_of_parse` that a command passes no others, and `shown_ne_nil` that one which
counts as true is not shown as the empty text.
-/

namespace GuardedConsole

open Number

/-- Plain data, at every depth. -/
inductive Value.IsData : Value → Prop where
  | null : IsData .null
  | undefined : IsData .undefined
  | bool (b : Bool) : IsData (.bool b)
  | int (i : Int) : IsData (.int i)
  | float (x : Binary64) : IsData (.float x)
  | text (t : Text) : IsData (.text t)
  | moment (m : Time.Moment) : IsData (.moment m)
  | list {items : List Value} : (∀ v ∈ items, IsData v) → IsData (.list items)
  | dict {entries : List (Value × Value)} : (∀ entry ∈ entries, IsData entry.1) →
    (∀ entry ∈ entries, IsData entry.2) → IsData (.dict entries)

variable {now : Time.Moment} {t : Text} {v : Value}

/-! ### Entries -/

namespace Entries

variable {entries added : Entries} {key value : Value}

/-- All keys and values are plain data. -/
def AllData (entries : Entries) : Prop :=
  ∀ entry ∈ entries, entry.1.IsData ∧ entry.2.IsData

theorem allData_nil : AllData [] := fun _ member => nomatch member

theorem allData_cons {entry : Value × Value} :
    AllData (entry :: entries) ↔ (entry.1.IsData ∧ entry.2.IsData) ∧ AllData entries :=
  List.forall_mem_cons

theorem AllData.dict (data : AllData entries) : (Value.dict entries).IsData :=
  .dict (fun entry member => (data entry member).1) fun entry member => (data entry member).2

theorem allData_of_dict (data : (Value.dict entries).IsData) : AllData entries := by
  cases data with
  | dict keys values => exact fun entry member => ⟨keys entry member, values entry member⟩

theorem AllData.put (data : AllData entries) (key_data : key.IsData) (value_data : value.IsData) :
    AllData (put key value entries) := by
  induction entries with
  | nil => exact allData_cons.mpr ⟨⟨key_data, value_data⟩, allData_nil⟩
  | cons entry rest ih =>
    obtain ⟨⟨first, second⟩, rest_data⟩ := allData_cons.mp data
    rw [Entries.put]
    split
    · exact allData_cons.mpr ⟨⟨first, value_data⟩, rest_data⟩
    · exact allData_cons.mpr ⟨⟨first, second⟩, ih rest_data⟩

theorem AllData.merge (data : AllData entries) (added_data : AllData added) :
    AllData (merge entries added) := by
  induction added generalizing entries with
  | nil => exact data
  | cons entry rest ih =>
    obtain ⟨⟨first, second⟩, rest_data⟩ := allData_cons.mp added_data
    exact ih (data.put first second) rest_data

theorem AllData.find? (data : AllData entries) (found : find? key entries = some v) :
    v.IsData := by
  induction entries with
  | nil => cases found
  | cons entry rest ih =>
    obtain ⟨⟨_, second⟩, rest_data⟩ := allData_cons.mp data
    rw [Entries.find?] at found
    split at found
    · cases found
      exact second
    · exact ih rest_data found

theorem isData_of_items? {items : List Value} (data : v.IsData) (listed : items? v = some items) :
    ∀ item ∈ items, item.IsData := by
  cases data with
  | list each =>
    cases listed
    exact each
  | text t =>
    cases listed
    intro item member
    obtain ⟨c, _, rfl⟩ := List.mem_map.mp member
    exact .text _
  | dict keys _ =>
    cases listed
    intro item member
    obtain ⟨entry, inside, rfl⟩ := List.mem_map.mp member
    exact keys entry inside
  | _ => cases listed

theorem AllData.ofPairs {index : Nat} {elements : List Value} {result : Entries}
    (data : AllData entries) (each : ∀ element ∈ elements, element.IsData)
    (made : ofPairs entries index elements = .ok result) : AllData result := by
  induction elements generalizing entries index with
  | nil =>
    cases made
    exact data
  | cons element rest ih =>
    obtain ⟨first, others⟩ := List.forall_mem_cons.mp each
    rw [Entries.ofPairs] at made
    split at made
    · cases made
    · rename_i key value listed
      have parts := isData_of_items? first listed
      split at made
      · cases made
      · exact ih (data.put (parts key (by simp)) (parts value (by simp))) others made
    · cases made

theorem allData_of_ofOptionalData (data : v.IsData) (made : ofOptionalData v = .ok entries) :
    AllData entries := by
  rw [ofOptionalData] at made
  split at made
  · unfold ofData at made
    split at made
    · cases made
      exact allData_of_dict data
    · split at made
      · rename_i listed
        exact allData_nil.ofPairs (isData_of_items? data listed) made
      · cases made
  · cases made
    exact allData_nil

end Entries

/-! ### Literals -/

namespace Value

mutual

theorem isData_ofJson : ∀ j : Json, (ofJson j).IsData
  | .null => .null
  | .bool b => .bool b
  | .int i => .int i
  | .float x => .float x
  | .text t => .text t
  | .list items => .list (isData_ofItems items)
  | .record members => (allData_ofMembers members).dict

theorem isData_ofItems : ∀ items : List Json, ∀ v ∈ ofItems items, v.IsData
  | [], _, member => nomatch member
  | item :: items, v, member =>
    List.forall_mem_cons.mpr ⟨isData_ofJson item, isData_ofItems items⟩ v member

theorem allData_ofMembers : ∀ members : List (Text × Json), Entries.AllData (ofMembers members)
  | [] => Entries.allData_nil
  | (name, value) :: members =>
    Entries.allData_cons.mpr ⟨⟨.text name, isData_ofJson value⟩, allData_ofMembers members⟩

end

mutual

theorem IsData.sanitizeItem : ∀ {v : Value}, v.IsData → (sanitizeItem v).IsData
  | _, .null => .null
  | _, .undefined => .undefined
  | _, .bool b => .bool b
  | _, .int i => .int i
  | _, .float x => .float x
  | _, .text t => .text t.withoutBrackets
  | _, .moment m => .moment m
  | _, .list each => .list each
  | .dict entries, data => (allData_sanitizeEntries entries (Entries.allData_of_dict data)).dict

theorem allData_sanitizeEntries : ∀ entries : List (Value × Value), Entries.AllData entries →
    Entries.AllData (sanitizeEntries entries)
  | [], _ => Entries.allData_nil
  | (key, value) :: entries, data => by
    obtain ⟨⟨first, second⟩, rest⟩ := Entries.allData_cons.mp data
    rw [sanitizeEntries]
    split
    · exact allData_sanitizeEntries entries rest
    · exact Entries.allData_cons.mpr
        ⟨⟨first, second.sanitizeItem⟩, allData_sanitizeEntries entries rest⟩

end

theorem IsData.sanitize (data : v.IsData) : v.sanitize.IsData := by
  cases data with
  | dict keys values =>
    exact (allData_sanitizeEntries _ fun entry member =>
      ⟨keys entry member, values entry member⟩).dict
  | _ => constructor <;> assumption

end Value

namespace Literal

variable {value : Text → Except Failure Value}

/-- The reader gives nothing but plain data. -/
def GivesData (value : Text → Except Failure Value) : Prop :=
  ∀ t v, value t = .ok v → v.IsData

/-- What holds of the value that each entry is read as holds of all values in the result. -/
theorem forall_readEntries {holds : Value → Prop} {entries result : Table Value}
    {texts : List Text} (known : ∀ entry ∈ entries, holds entry.2)
    (each : ∀ t ∈ texts, ∀ key text v, looseEntry? t = some (key, text) → value text = .ok v →
      holds v) (read : readEntries value entries texts = .ok result) :
    ∀ entry ∈ result, holds entry.2 := by
  induction texts generalizing entries with
  | nil =>
    cases read
    exact known
  | cons t rest ih =>
    obtain ⟨first, others⟩ := List.forall_mem_cons.mp each
    rw [readEntries] at read
    split at read
    · exact ih known others read
    · rename_i key text found
      split at read
      · cases read
      · rename_i v read_value
        refine ih ?_ others read
        intro entry member
        rcases Table.mem_put member with rfl | old
        · exact first key text v found read_value
        · exact known entry old

theorem isData_dictOf {entries : Table Value} (data : ∀ entry ∈ entries, entry.2.IsData) :
    (dictOf entries).IsData := by
  refine Entries.AllData.dict fun entry member => ?_
  obtain ⟨⟨name, v⟩, inside, rfl⟩ := List.mem_map.mp member
  exact ⟨.text name, data _ inside⟩

theorem isData_of_readObject (gives : GivesData value) (read : readObject value t = .ok v) :
    v.IsData := by
  unfold readObject at read
  split at read
  · cases read
    exact (Value.isData_ofJson _).sanitize
  · split at read
    · rename_i loose
      cases read
      unfold readLoosely at loose
      split at loose
      · rename_i entries
        cases loose
        exact (isData_dictOf (forall_readEntries (List.forall_mem_nil _)
          (fun _ _ _ text v _ => gives text v) entries)).sanitize
      · cases loose
    · cases read

theorem isData_readArray (t : Text) : (readArray t).IsData := by
  unfold readArray
  split
  · exact .list (Value.isData_ofItems _)
  · exact .list fun _ member => nomatch member

theorem isData_of_ofNumeral {n : Numeral} (read : ofNumeral n = .ok v) : v.IsData := by
  unfold ofNumeral at read
  split at read
  · cases read
    exact .float _
  · split at read
    · cases read
      exact .int _
    · cases read

theorem isData_of_keyword (found : keywords.find? t = some v) : v.IsData := by
  simp only [keywords, Table.find?] at found
  split at found
  · cases found
    exact .null
  · split at found
    · cases found
      exact .undefined
    · split at found
      · cases found
        exact .bool true
      · split at found
        · cases found
          exact .bool false
        · cases found

theorem GivesData.readWith (gives : GivesData value) : GivesData (readWith value now) := by
  intro t v read
  unfold Literal.readWith at read
  split at read
  · rename_i keyword
    cases read
    exact isData_of_keyword keyword
  split at read
  · cases read
    exact .text _
  split at read
  · exact isData_of_ofNumeral read
  split at read
  · split at read
    · cases read
      exact .moment _
    · cases read
  split at read
  · exact isData_of_readObject gives read
  · cases read
    exact isData_readArray _
  · cases read
    exact .text t

theorem givesData_readNested (now : Time.Moment) (depth : Nat) :
    GivesData (readNested now depth) := by
  induction depth with
  | zero =>
    intro t v read
    cases read
    exact .text t
  | succ depth ih => exact ih.readWith

theorem isData_of_read (read : Literal.read now t = .ok v) : v.IsData :=
  givesData_readNested now _ t v read

theorem readEach_eq_ok_iff {texts : List Text} {values : List Value} :
    readEach now texts = .ok values ↔
      List.Forall₂ (fun t v => Literal.read now t = .ok v) texts values := by
  induction texts generalizing values with
  | nil =>
    rw [List.forall₂_nil_left_iff, readEach]
    exact ⟨fun read => (Except.ok.inj read).symm, fun none => by rw [none]⟩
  | cons t texts ih =>
    rw [List.forall₂_cons_left_iff, readEach]
    constructor
    · intro read
      split at read
      · cases read
      · rename_i first here
        split at read
        · rename_i others later
          cases read
          exact ⟨first, others, here, ih.mp later, rfl⟩
        · cases read
    · rintro ⟨first, others, here, later, rfl⟩
      rw [here, ih.mpr later]

theorem isData_of_readEach {texts : List Text} {values : List Value}
    (read : readEach now texts = .ok values) : ∀ v ∈ values, v.IsData := by
  have each := readEach_eq_ok_iff.mp read
  clear read
  induction each with
  | nil => exact List.forall_mem_nil _
  | cons here _ ih => exact List.forall_mem_cons.mpr ⟨isData_of_read here, ih⟩

end Literal

/-! ### Commands -/

namespace Command

/-- The values that a command passes. -/
def arguments : Command → List Value
  | .property _ => []
  | .call _ arguments => arguments
  | .construct _ arguments => arguments

theorem isData_of_ofShape {shape : Shape} {c : Command} (made : ofShape now shape = .ok c) :
    ∀ v ∈ c.arguments, v.IsData := by
  cases shape with
  | property path =>
    cases made
    exact fun _ member => nomatch member
  | call path text =>
    rw [ofShape] at made
    split at made
    · rename_i read
      cases made
      exact Literal.isData_of_readEach read
    · cases made
  | construct name text =>
    rw [ofShape] at made
    split at made
    · rename_i read
      cases made
      exact Literal.isData_of_readEach read
    · cases made

theorem isData_of_parse {c : Command} (parsed : parse now t = .ok (some c)) :
    ∀ v ∈ c.arguments, v.IsData := by
  unfold parse at parsed
  split at parsed
  · cases parsed
  · split at parsed
    · rename_i made
      cases parsed
      exact isData_of_ofShape made
    · cases parsed

end Command

/-! ### Shown texts -/

theorem Number.Binary64.text_ne_nil (x : Binary64) : x.text ≠ [] := by
  have marked : ∀ digits k, positional digits k true ≠ [] := by
    intro digits k
    unfold positional
    split
    · simp [String.toText]
    · dsimp only
      split <;> simp [String.toText]
  have scaled : ∀ digits k, scientific digits k ≠ [] := by
    intro digits k
    simp [scientific, exponentText]
  cases x with
  | nan => decide
  | infinite negative => cases negative <;> decide
  | finite negative m e =>
    rw [Binary64.text]
    split
    · simp [String.toText]
    · generalize shortest m e = decimal
      intro empty
      obtain ⟨_, rest⟩ := List.append_eq_nil_iff.mp empty
      split at rest
      · exact marked _ _ rest
      · exact scaled _ _ rest

theorem Value.shown_ne_nil (data : v.IsData) (truthy : v.isTruthy = true) : v.shown ≠ [] := by
  cases data with
  | null => cases truthy
  | undefined => cases truthy
  | bool b => cases b <;> simp [shown, spelled, String.toText]
  | int i => exact intText_ne_nil i
  | float x => exact x.text_ne_nil
  | text t => simpa [isTruthy, shown] using truthy
  | moment m => simp [shown, Time.Iso.writeWith]
  | list each => simp [shown, spelled]
  | dict keys values => simp [shown, spelled]

end GuardedConsole
