import GuardedConsole.Interpreter.Host

/-!
# Rendered results

`Value.render` is the text that a result is shown as. Plain texts, numbers and moments stand for
themselves; everything else is written as JSON. `Value.document` makes that document of a value, one
level of the stack for each level of values inside values. An object that stands inside itself is
marked instead of being entered again. Rendering fails where looking at a value or calling it does, where
the stack has no room left, and where an integer has too many digits to be written.
-/

namespace GuardedConsole

open Number Time

variable {σ : Type} [Host σ]

/-- Calls something without arguments. -/
def Value.called (callee : Value) : Effect σ Value := fun s =>
  Host.call s callee []

/-- The part of a document that a member gives: its name, and the document of its value. -/
def memberDocument (inner : Value → Effect σ Json) (entry : Except Failure Text × Value) :
    Effect σ (Text × Json) := do
  let name ← Effect.read fun _ => entry.1
  let document ← inner entry.2
  return (name, document)

/-- The document of what is shown, if `inner` makes the documents of the values in it. -/
def Showing.document (inner : Value → Effect σ Json) : Showing → Effect σ Json
  | .whole document => return document
  | .items values => return .list (← values.mapM inner)
  | .members entries => return .record (Table.ofList (← entries.mapM (memberDocument inner)))
  | .presents callee => do
    let v ← callee.called
    inner v

namespace Value

def circular : Json :=
  .text "[Circular Reference]".toText

def functionMark (name : Text) : Json :=
  .text ("[Function: ".toText ++ name ++ [.char ']'])

def classMark (name : Text) : Json :=
  .text ("[Class: ".toText ++ name ++ [.char ']'])

/-- The document of a value that is no object. -/
def plain? : Value → Option Json
  | .null | .undefined => some .null
  | .bool b => some (.bool b)
  | .int i => some (.int i)
  | .float x => some (.float x)
  | .text t => some (.text t)
  | .moment m => some (.text (Iso.write m))
  | .date d => some (.text (Iso.dateText d))
  | _ => none

/-- The objects that a value is inside of, and the value. -/
def around (seen : List Identity) (v : Value) : List Identity :=
  v.identity?.toList ++ seen

/-- What is shown of a value inside the objects `seen`. What can be called is only marked, and so is
an object that is inside itself. -/
def opened (s : σ) (seen : List Identity) (v : Value) : Except Failure Showing :=
  match v.plain? with
  | some document => .ok (.whole document)
  | none =>
    if Host.isClass s v then (Host.nameOf s v).map fun name => .whole (classMark name)
    else if Host.isCallable s v then (Host.nameOf s v).map fun name => .whole (functionMark name)
    else if v.identity?.any seen.contains then .ok (.whole circular)
    else Host.look s v

def tooDeep : Failure :=
  .fault .internal "maximum recursion depth exceeded".toText

/-- The document of a value inside the objects `seen`, if there is room for some levels of values
inside values. -/
def document : Nat → List Identity → Value → Effect σ Json
  | 0, _, _ => Effect.read fun _ => .error tooDeep
  | room + 1, seen, v => do
    let showing ← Effect.read fun s => v.opened s seen
    showing.document (document room (v.around seen))

/-- The text of an integer, unless it has too many digits. -/
def intText? (i : Int) : Except Failure Text :=
  if Number.isWritable i then .ok (intText i) else .error unwritable

/-- A text, a number or a moment that is not inside anything is rendered as it is. -/
def bareText? : Value → Option (Except Failure Text)
  | .null => some (.ok "null".toText)
  | .undefined => some (.ok "undefined".toText)
  | .bool b => some (.ok (if b then "true".toText else "false".toText))
  | .text t => some (.ok t)
  | .int i => some (intText? i)
  | .float x => some (.ok x.text)
  | .moment m => some (.ok (Iso.write m))
  | .date d => some (.ok (Iso.dateText d))
  | _ => none

end Value

/-- The text of a document, unless an integer in it has too many digits. -/
def Json.print (document : Json) : Except Failure Text :=
  if document.isWritable then .ok document.write else .error Value.unwritable

def Value.render (v : Value) : Effect σ Text :=
  match v.bareText? with
  | some bare => Effect.read fun _ => bare
  | none => do
    let room ← Effect.read fun s => .ok (Host.room s)
    let document ← v.document room []
    Effect.read fun _ => document.print

def World.render (w : World) (v : Value) : Outcome Text :=
  (v.render w).1

end GuardedConsole
