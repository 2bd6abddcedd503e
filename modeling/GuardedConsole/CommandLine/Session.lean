import GuardedConsole.CommandLine.Classification
import GuardedConsole.Console.Basic

/-!
# Sessions on the command line

A session prompts for lines until there are none left. A line that begins with a question mark asks
for completions, any other is executed. `CommandLine.output` is everything that a run of the program
prints, with the failure that ends it if one gets out, or that it waits for ever.
-/

namespace GuardedConsole.CommandLine

def greeting : Text :=
  line "No telegram_credentials.py, Telegram disabled.".toText ++
    line "Console ready. Type \"help()\" for available commands, \"?prefix\" to complete.".toText

def prompt : Text :=
  "> ".toText

def farewell : Text :=
  line "\nShutting down.".toText

def replyText (r : Reply) : Text :=
  match r.output with
  | none => []
  | some output => line (if r.succeeded then output else "! ".toText ++ output)

def respond (c : Console) (typed : Text) : Outcome Text × Console :=
  match typed with
  | .char '?' :: start =>
    (.returned ((c.complete (Text.trim start)).flatMap fun option => line ("  ".toText ++ option)), c)
  | command =>
    match c.execute command Console.ownSource with
    | (.returned r, c) => (.returned (replyText r), c)
    | (.failed f, c) => (.failed f, c)
    | (.unfinished, c) => (.unfinished, c)

/-- What a run prints, the failure that ends it early, if there is one, and whether it waits for ever
for a command. -/
structure Transcript where
  printed : Text
  failure : Option Failure := none
  waits : Bool := false

/-- What is printed from the first prompt on. A failure that gets out ends the session. -/
def conversation (c : Console) : List Text → Transcript
  | [] => { printed := prompt ++ farewell }
  | typed :: lines =>
    match respond c typed with
    | (.returned answer, c) =>
      let rest := conversation c lines
      { rest with printed := prompt ++ answer ++ rest.printed }
    | (.failed f, _) => { printed := prompt, failure := some f }
    | (.unfinished, _) => { printed := prompt, waits := true }

def classified? : List Text → Option Text
  | first :: word :: words =>
    if first = "-parse".toText then some (Text.joinWith [.char ' '] (word :: words)) else none
  | _ => none

def console (now : Time.Moment) (files : Files) : Except Failure Console :=
  Console.start { keepsState := true } .forCalendar (.fresh now) files {}

def output (now : Time.Moment) (words lines : List Text) : Transcript :=
  match classified? words with
  | some t => { printed := classification now t }
  | none =>
    match console now {} with
    | .ok c =>
      let rest := conversation c lines
      { rest with printed := greeting ++ rest.printed }
    | .error f => { printed := [], failure := some f }

end GuardedConsole.CommandLine
