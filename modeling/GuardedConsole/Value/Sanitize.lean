import GuardedConsole.Value.Display

/-!
# Cleaning decoded objects

Entries whose key begins with two underscores or with `on` are dropped, and angle brackets are taken
out of texts, at every depth of dictionaries inside dictionaries. Other values stay as they are.
-/

namespace GuardedConsole

def dangerousBeginnings : List Text :=
  ["__".toText, "on".toText]

def Text.isDangerous (t : Text) : Bool :=
  dangerousBeginnings.any fun beginning => beginning.isPrefixOf t

def Text.withoutBrackets (t : Text) : Text :=
  t.filter fun c => c != '<' && c != '>'

namespace Value

def isDangerousKey (key : Value) : Bool :=
  key.shown.isDangerous

mutual

def sanitizeItem : Value → Value
  | .text t => .text t.withoutBrackets
  | .dict entries => .dict (sanitizeEntries entries)
  | v => v

def sanitizeEntries : List (Value × Value) → List (Value × Value)
  | [] => []
  | (key, value) :: entries =>
    if key.isDangerousKey then sanitizeEntries entries
    else (key, sanitizeItem value) :: sanitizeEntries entries

end

def sanitize : Value → Value
  | .dict entries => .dict (sanitizeEntries entries)
  | v => v

end Value

end GuardedConsole
