import GuardedConsole.Text.Quoted

/-!
# Failures

A failure is one of the interpreter's own refusals, a fault of some kind with its message, or a
failed execution with its cause. `Failure.kind` classifies it and `Failure.message` words it.
-/

namespace GuardedConsole

/-- What sort of thing went wrong. -/
inductive FaultKind where
  | command
  | securityViolation
  | invalidFormat
  | notFound
  | forbidden
  | notCallable
  | undecodable
  | executionFailed
  | timedOut
  | wrongType
  | badValue
  | badEncoding
  | unencodable
  | missingKey
  | missingMember
  | outOfRange
  | system
  | internal
deriving DecidableEq

/-- Why the interpreter refuses a command before anything is called. -/
inductive Refusal where
  | denied (pattern : Text)
  | unrecognized
  | noObject (name : Text)
  | noMember (name owner : Text)
  | noClass (name : Text)
  | privateMember (name : Text)
  | needsNew (name : Text)
  | methodNotAllowed (name : Text)
  | constructorNotAllowed (name : Text)
  | notFunction (name : Text)
  | notConstructor (name : Text)
deriving DecidableEq

namespace Refusal

def kind : Refusal → FaultKind
  | denied _ => .securityViolation
  | unrecognized => .invalidFormat
  | noObject _ | noMember _ _ | noClass _ => .notFound
  | privateMember _ | needsNew _ | methodNotAllowed _ | constructorNotAllowed _ => .forbidden
  | notFunction _ | notConstructor _ => .notCallable

def message : Refusal → Text
  | denied pattern => "Unsafe pattern detected: ".toText ++ pattern
  | unrecognized => "Invalid command format".toText
  | noObject name => "Object ".toText ++ name.named ++ " not found".toText
  | noMember name owner =>
    "Property ".toText ++ name.named ++ " not found on ".toText ++ owner
  | noClass name => "Class ".toText ++ name.named ++ " not found".toText
  | privateMember name => "Access to ".toText ++ name.named ++ " is not allowed".toText
  | needsNew name =>
    "Use 'new ".toText ++ name ++ "(...)' to construct ".toText ++ name.named
  | methodNotAllowed name => "Method ".toText ++ name.named ++ " is not allowed".toText
  | constructorNotAllowed name => "Constructor ".toText ++ name.named ++ " is not allowed".toText
  | notFunction name => name.named ++ " is not a function".toText
  | notConstructor name => name.named ++ " is not a constructor".toText

end Refusal

/-- Why a command, or a part of one, has no result. -/
inductive Failure where
  | refused (reason : Refusal)
  | fault (kind : FaultKind) (message : Text)
  | execution (cause : Failure)
deriving DecidableEq

namespace Failure

def kind : Failure → FaultKind
  | refused reason => reason.kind
  | fault kind _ => kind
  | execution _ => .executionFailed

def message : Failure → Text
  | refused reason => reason.message
  | fault _ message => message
  | execution cause => "Command execution failed: ".toText ++ cause.message

def unwrap : Failure → Failure
  | execution cause => cause
  | other => other

/-- A failure of the given kind with the given message, or with none. A violation shows the denied
pattern, a missing key is shown quoted, and a failed execution was caused by something not found. -/
def ofKind (kind : FaultKind) (message : Option Text) : Failure :=
  match kind, message with
  | .securityViolation, pattern => .refused (.denied (pattern.getD "None".toText))
  | .missingKey, some key => .fault .missingKey key.quoted
  | .executionFailed, m => .execution (.fault .notFound (m.getD []))
  | kind, m => .fault kind (m.getD [])

def wrapped : Nat → Failure → Failure
  | 0, f => f
  | n + 1, f => .execution (wrapped n f)

/-- Changing a result does not make it fail. -/
theorem of_map {α β : Type} {g : α → β} {result : Except Failure α} {f : Failure}
    (failed : result.map g = .error f) : result = .error f := by
  cases result with
  | error f' =>
    cases failed
    rfl
  | ok a => cases failed

end Failure

end GuardedConsole
