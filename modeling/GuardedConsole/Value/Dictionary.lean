import GuardedConsole.Value.Basic

/-!
# Dictionaries

Entries under keys that are values. `ofData` makes entries of what a caller passes as data: a
dictionary, or a sequence of pairs.
-/

namespace GuardedConsole

abbrev Entries := List (Value × Value)

namespace Entries

def put (key value : Value) : Entries → Entries
  | [] => [(key, value)]
  | (k, v) :: rest => if k.sameKey key then (k, value) :: rest else (k, v) :: put key value rest

def find? (key : Value) : Entries → Option Value
  | [] => none
  | (k, v) :: rest => if k.sameKey key then some v else find? key rest

def get? (name : String) (entries : Entries) : Option Value :=
  find? (.text name.toText) entries

def merge (entries added : Entries) : Entries :=
  added.foldl (fun es (k, v) => put k v es) entries

theorem find?_put_text (name : Text) (value : Value) (entries : Entries) :
    find? (.text name) (put (.text name) value entries) = some value := by
  induction entries with
  | nil => simp [put, find?, Value.sameKey]
  | cons entry rest ih =>
    rw [put]
    split
    · rename_i same
      rw [find?, if_pos same]
    · rename_i differs
      rw [find?, if_neg differs, ih]

def items? : Value → Option (List Value)
  | .list items | .tuple items | .set items => some items
  | .text t => some (t.map fun c => .text [c])
  | .dict entries => some (entries.map Prod.fst)
  | _ => none

def notIterable (v : Value) : Failure :=
  .fault .wrongType (v.typeName.named ++ " object is not iterable".toText)

def notSequence (index : Nat) : Failure :=
  .fault .wrongType
    ("cannot convert dictionary update sequence element #".toText ++ Number.natText index ++
      " to a sequence".toText)

def notPair (index length : Nat) : Failure :=
  .fault .badValue
    ("dictionary update sequence element #".toText ++ Number.natText index ++ " has length ".toText
      ++ Number.natText length ++ "; 2 is required".toText)

/-- Puts the pairs of a sequence into the entries, the first of them being the element `index`. -/
def ofPairs (entries : Entries) (index : Nat) : List Value → Except Failure Entries
  | [] => .ok entries
  | element :: rest =>
    match items? element with
    | none => .error (notSequence index)
    | some [key, value] =>
      match key.checkHashable with
      | .error f => .error f
      | .ok () => ofPairs (put key value entries) (index + 1) rest
    | some other => .error (notPair index other.length)

def ofData : Value → Except Failure Entries
  | .dict entries => .ok entries
  | v =>
    match items? v with
    | some elements => ofPairs [] 0 elements
    | none => .error (notIterable v)

def ofOptionalData (v : Value) : Except Failure Entries :=
  if v.isTruthy then ofData v else .ok []

end Entries

end GuardedConsole
