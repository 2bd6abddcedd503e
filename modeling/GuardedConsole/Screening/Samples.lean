import GuardedConsole.Screening.DenyList
import GuardedConsole.Text.Quoted

/-!
# Samples of screening

Six texts, and a report that says of each whether a denied pattern blocks it.
-/

namespace GuardedConsole.Screening

def samples : List Text :=
  ["calendar.get_events()", "eval(\"1+1\")",
    "calendar.add_event(\x7btitle: \"x\", onclick = 1\x7d)",
    "calendar.add_event(\x7btitle: \"<script>alert(1)</script>\"\x7d)", "window.location",
    "calendar.set_view(`$\x7bx\x7d`)"].map String.toText

def sampleLine (t : Text) : Text :=
  "  ".toText ++ Text.padRight 60 t.quoted ++ " => ".toText ++
    (match findViolation (normalize t) with
      | some pattern => "blocked by ".toText ++ pattern.source
      | none => "ok".toText) ++ [.char '\n']

def sampleReport : Text :=
  samples.flatMap sampleLine

end GuardedConsole.Screening
