import GuardedConsole.Console.Completion
import GuardedConsole.Console.Rendering
import GuardedConsole.Console.StateFile
import GuardedConsole.Report.Reporter

/-!
# The console

A console executes commands for a person on the objects of a host: it keeps their history, gives up on
commands that take too long, renders results, words failures, reports them, and writes a request log and
a state file.
-/

namespace GuardedConsole

open Time

/-- How a console works. Without a time limit it waits for every command. -/
structure Settings where
  historySize : Int := 100
  timeLimit : Option Number.Binary64 := some (.ofDecimal false 5 0)
  writesLog : Bool := true
  keepsState : Bool := false

/-- The contents of the files of a console. A file that does not exist has none. -/
structure Files where
  log : Option Text := none
  state : Option Text := none

/-- A console on the objects of a host, whose states are of the type `σ`. -/
structure Console (σ : Type := World) where
  settings : Settings
  interpreter : Interpreter
  world : σ
  files : Files := {}
  reporter : Reporter := {}
  history : History := {}

/-- What a console says about a command: whether it succeeded, and its result or what went wrong. -/
structure Reply where
  succeeded : Bool
  output : Option Text
deriving DecidableEq

namespace Console

variable {σ : Type}

/-- A console on files. Its history is the one in the state file. -/
def start (settings : Settings) (interpreter : Interpreter) (world : σ) (files : Files)
    (reporter : Reporter) : Except Failure (Console σ) :=
  let state := if settings.keepsState then files.state else none
  (StateFile.load settings.historySize state).map fun history =>
    { settings, interpreter, world, files, reporter, history }

def reopen (c : Console σ) (reporter : Reporter) : Except Failure (Console σ) :=
  start c.settings c.interpreter c.world c.files reporter

def remember (c : Console σ) (text : Text) : Console σ :=
  { c with history := c.history.add text }

def previous (c : Console σ) : Option Text × Console σ :=
  let (entry, history) := c.history.previous
  (entry, { c with history := history })

def next (c : Console σ) : Text × Console σ :=
  let (entry, history) := c.history.next
  (entry, { c with history := history })

def completions (c : Console) : List Text :=
  c.interpreter.completions c.world

def complete (c : Console) (start : Text) : List Text :=
  c.interpreter.complete c.world start

def ownSource : Text :=
  "[console]".toText

/-! ### Execution -/

def timedOut (limit : Number.Binary64) : Failure :=
  .fault .timedOut ("Command timed out after ".toText ++ limit.sixDigits ++ [.char 's'])

def logEntry (now : Moment) (text outcome source : Text) : Text :=
  now.secondStamp ++ " ".toText ++ source ++ "  ".toText ++ text ++ "\n  -> ".toText ++ outcome ++
    "\n".toText

variable [Host σ]

/-- Writes a command and its outcome to the log. An entry with half of a surrogate pair cannot be
written, but the log is there from then on. -/
def logRequest (c : Console σ) (text outcome source : Text) : Except Failure Unit × Console σ :=
  if c.settings.writesLog then
    let entry := logEntry (Host.now c.world) text outcome source
    let log := c.files.log.getD []
    let withLog (log : Text) : Console σ := { c with files := { c.files with log := some log } }
    match entry.checkEncodable with
    | .error f => (.error f, withLog log)
    | .ok () => (.ok (), withLog (log ++ entry))
  else (.ok (), c)

def save (c : Console σ) : Console σ :=
  if c.settings.keepsState then
    let state := StateFile.write (Host.now c.world) c.history.entries
    { c with files := { c.files with state := some state } }
  else c

def conclude (c : Console σ) (text source outcome : Text) (r : Reply) : Outcome Reply × Console σ :=
  match c.logRequest text outcome source with
  | (.ok (), c) => (.returned r, c.save)
  | (.error f, c) => (.failed f, c)

def reportContext (text source : Text) : Table Text :=
  [("command".toText, text), ("source".toText, source)]

/-- Reports a failure and words it. The complaint about a listener may not be printable. -/
def fail (c : Console σ) (text source : Text) (f : Failure) : Outcome Reply × Console σ :=
  let (reported, reporter) := c.reporter.record f (reportContext text source)
  let c := { c with reporter := reporter }
  match reported with
  | .error f => (.failed f, c)
  | .ok _ =>
    c.conclude text source ("error: ".toText ++ f.userMessage) ⟨false, some f.userMessage⟩

/-- Renders a result. -/
def succeed (c : Console σ) (text source : Text) (v : Value) : Outcome Reply × Console σ :=
  let (rendered, world) := v.render c.world
  let c := { c with world := world }
  match rendered with
  | .returned output => c.conclude text source output.firstLine ⟨true, some output⟩
  | .failed f => (.failed f, c)
  | .unfinished => (.unfinished, c)

/-- Executes a command. A blank one does nothing. Without a time limit a command that never ends is
waited for. Failures of the command are worded; those of rendering its result, of printing a complaint
about a listener and of writing the log get out. -/
def execute (c : Console σ) (text source : Text) : Outcome Reply × Console σ :=
  if text.trim.isEmpty then (.returned ⟨true, none⟩, c)
  else
    let c := c.remember text
    let (answer, world) := c.interpreter.execute c.world text
    let c := { c with world := world }
    match answer, c.settings.timeLimit with
    | .returned v, _ => c.succeed text source v
    | .failed f, _ => c.fail text source f
    | .unfinished, some limit => c.fail text source (timedOut limit)
    | .unfinished, none => (.unfinished, c)

end Console

end GuardedConsole
