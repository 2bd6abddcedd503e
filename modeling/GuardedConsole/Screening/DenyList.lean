import GuardedConsole.Failure
import GuardedConsole.Screening.Pattern

/-!
# Screening

The sixteen patterns that no command may contain, in the order in which they are reported.
`normalize` trims a command, `findViolation` finds the first pattern that occurs in a text, and
`validate` refuses a command in whose normal form one occurs.
-/

namespace GuardedConsole.Screening

def denyList : List Pattern :=
  [⟨"eval\\s*\\(".toText, caseless "eval" ++ blanks ++ mark '('⟩,
    ⟨"function\\s*\\(".toText, caseless "function" ++ blanks ++ mark '('⟩,
    ⟨"new\\s+Function".toText, caseless "new" ++ oneOrMore .blank ++ caseless "Function"⟩,
    ⟨"setTimeout".toText, caseless "setTimeout"⟩,
    ⟨"setInterval".toText, caseless "setInterval"⟩,
    ⟨"document\\.".toText, caseless "document."⟩,
    ⟨"window\\.".toText, caseless "window."⟩,
    ⟨"localStorage".toText, caseless "localStorage"⟩,
    ⟨"sessionStorage".toText, caseless "sessionStorage"⟩,
    ⟨"fetch\\s*\\(".toText, caseless "fetch" ++ blanks ++ mark '('⟩,
    ⟨"XMLHttpRequest".toText, caseless "XMLHttpRequest"⟩,
    ⟨"import\\s*\\(".toText, caseless "import" ++ blanks ++ mark '('⟩,
    ⟨"<script".toText, caseless "<script"⟩,
    ⟨"on\\w+\\s*=".toText, caseless "on" ++ oneOrMore .word ++ blanks ++ mark '='⟩,
    ⟨"javascript:".toText, caseless "javascript:"⟩,
    ⟨"\\$\\\x7b".toText, mark '$' ++ mark '\x7b'⟩]

/-- The text without blanks at its ends and without one semicolon at the end of what is left. -/
def normalize (t : Text) : Text :=
  let t := t.trim
  if t.getLast? = some (.char ';') then t.dropLast else t

def findViolation (t : Text) : Option Pattern :=
  denyList.find? fun p => occursIn p.elements t

def validate (t : Text) : Except Refusal Unit :=
  match findViolation (normalize t) with
  | some p => .error (.denied p.source)
  | none => .ok ()

end GuardedConsole.Screening
