import GuardedConsole.Console.Basic

/-!
# Commands by chat

A message is executed as a command on behalf of its sender, and answered with a reply of bounded
length. `Chat.handle` also says what is printed about the message.
-/

namespace GuardedConsole.Chat

def maxReply : Nat := 4000

/-- The text sent back for a reply of the console. A longer one is cut. -/
def formatReply (r : Reply) : Text :=
  match r.output with
  | none => []
  | some output =>
    let t := if r.succeeded then output else "Error: ".toText ++ output
    if maxReply < t.length then t.take maxReply ++ [.char '\n', .char '…'] else t

/-- A message and the names of its sender. -/
structure Message where
  text : Option Text
  firstName : Option Text := none
  username : Option Text := none

def nameAmong : List (Option Text) → Text
  | [] => "unknown".toText
  | some (c :: name) :: _ => c :: name
  | _ :: names => nameAmong names

def Message.source (m : Message) : Text :=
  "[Telegram:".toText ++ nameAmong [m.firstName, m.username] ++ [.char ']']

/-- What is printed and what is sent back. The sender waits for ever if the command does not end. -/
structure Exchange where
  printed : Text := []
  replies : List Text := []
  waits : Bool := false

def messageLine (source text : Text) : Text :=
  "  ".toText ++ source ++ " \"".toText ++ text ++ "\"\n".toText

def replyLine (reply : Text) : Text :=
  "  Response: \"".toText ++ reply ++ "\"\n".toText

/-- Handles a message: the failure that gets out, if there is one, and the exchange. A message without
a text is ignored. -/
def handle (c : Console) (m : Message) : Except Failure Unit × Exchange × Console :=
  match m.text with
  | none | some [] => (.ok (), {}, c)
  | some text =>
    let printed := messageLine m.source text
    match c.execute text m.source with
    | (.failed f, c) => (.error f, { printed }, c)
    | (.unfinished, c) => (.ok (), { printed, waits := true }, c)
    | (.returned r, c) =>
      let reply := formatReply r
      (.ok (),
        { printed := printed ++ replyLine reply
          replies := if reply.isEmpty then [] else [reply] }, c)

end GuardedConsole.Chat
