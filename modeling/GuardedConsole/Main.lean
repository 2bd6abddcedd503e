import GuardedConsole.CommandLine.Session
import Std.Time.DateTime.Timestamp

/-!
# The program

Reads lines from standard input, answers them, and keeps the request log and the state file on disk.
-/

namespace GuardedConsole.CommandLine

open Time

def logPath : String := "console.log"

def stateDirectory : String := "data"

def statePath : String := "data/console_state.json"

/-- A text as a string. Half of a surrogate pair, which a string cannot hold, becomes the
replacement character. -/
def displayed (t : Text) : String :=
  String.ofList (t.map fun c =>
    match c with
    | .char c => c
    | _ => '\ufffd')

def clock : IO Moment := do
  let nanos := (← Std.Time.Timestamp.now).toNanosecondsSinceUnixEpoch.val
  match Epoch.ofParts (nanos / 1000000000) (nanos % 1000000000 / 1000).toNat with
  | .ok m => return m
  | .error e => throw (.userError (displayed e.failure.message))

def printText (t : Text) : IO Unit := do
  let out ← IO.getStdout
  out.putStr (displayed t)
  out.flush

def readState : IO (Option Text) := do
  try
    return some (← IO.FS.readFile statePath).toText
  catch _ => return none

/-- Appends to the request log. A log that cannot be written is left alone. -/
def appendLog (t : Text) : IO Unit := do
  try
    let log ← IO.FS.Handle.mk logPath .append
    log.putStr (displayed t)
  catch _ => return ()

def writeFiles (c : Console) : IO Console := do
  appendLog (c.files.log.getD [])
  match c.files.state with
  | some state =>
    IO.FS.createDirAll stateDirectory
    IO.FS.writeFile statePath (displayed state)
  | none => pure ()
  return { c with files := { c.files with log := none } }

def withoutLineEnd (t : Text) : Text :=
  if t.getLast? = some (.char '\n') then t.dropLast else t

partial def loop (c : Console) : IO Unit := do
  printText prompt
  let typed ← (← IO.getStdin).getLine
  if typed.isEmpty then printText farewell
  else
    let c := { c with world := { c.world with now := ← clock } }
    let (answer, c) := respond c (withoutLineEnd typed.toText)
    let c ← writeFiles c
    -- a call that never ends does not come back, so that nobody waits for one here
    match answer.toExcept with
    | .ok t =>
      printText t
      loop c
    | .error f => throw (.userError (displayed f.message))

def run (words : List Text) : IO Unit := do
  let now ← clock
  match classified? words with
  | some t => printText (classification now t)
  | none =>
    match console now { state := ← readState } with
    | .ok c =>
      printText greeting
      loop c
    | .error f => throw (.userError (displayed f.message))

end GuardedConsole.CommandLine

def main (words : List String) : IO Unit :=
  GuardedConsole.CommandLine.run (words.map String.toText)
