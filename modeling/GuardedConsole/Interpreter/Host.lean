import GuardedConsole.World.Look

/-!
# Hosts

A host stands for the objects behind values: it knows the current moment, finds members, says what
can be called and what is a class, carries out calls, and says what values show when they are rendered.
The interpreter and the console ask a host and nothing else. `World.host` is the world of commands as
a host.
-/

namespace GuardedConsole

/-- The objects behind values, in states of type `σ`. To look at a value may fail, and leaves the
state as it is; a call may change it. -/
class Host (σ : Type) where
  now : σ → Time.Moment
  member? : σ → Text → Value → Except Failure (Option Value)
  isCallable : σ → Value → Bool
  isClass : σ → Value → Bool
  call : σ → Value → List Value → Answer × σ
  /-- The name of what can be called. -/
  nameOf : σ → Value → Except Failure Text
  look : σ → Value → Except Failure Showing
  /-- How many levels of values inside values there is room for on the stack. -/
  room : σ → Nat

instance World.host : Host World where
  now := World.now
  member? w name v := .ok (w.member? name v)
  isCallable _ v := v.isCallable
  isClass _ v := v.isClass
  call := World.call
  nameOf _ v := .ok v.calledName
  look w v := .ok (w.look v)
  room := World.room

end GuardedConsole
