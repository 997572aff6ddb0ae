import ScriptHost.Rejection
/-!
# Trace events

What is recorded of calls: that a call begins, and how it ended.
-/

namespace ScriptHost.Trace

/-- Something that happened to a call of a named function. -/
inductive Event where
  | call (function : String) (argCount : Nat)
  /-- The call returned a value that is not an error. -/
  | returned (function : String) (kind : Kind)
  | errorValue (function : String) (message : String)
  | rejected (function : String) (reason : Rejection)
deriving DecidableEq, Repr

namespace Event

def type : Event → String
  | call .. => "call"
  | returned .. => "returned"
  | errorValue .. => "error-value"
  | rejected .. => "rejected"

def function : Event → String
  | call f _ | returned f _ | errorValue f _ | rejected f _ => f

/-- Whether the call failed, in either way. -/
def isFailure : Event → Bool
  | errorValue .. | rejected .. => true
  | _ => false

def isCall : Event → Bool
  | call .. => true
  | _ => false

end Event

/-- An event with its number and the time since the trace began, in nanoseconds. -/
structure Record where
  id : Nat
  timestamp : Nat
  event : Event
deriving DecidableEq, Repr

end ScriptHost.Trace
