import ScriptHost.Kind
/-!
# Rejected calls

A call is rejected when its arguments do not fit the callee. The callee has
not run then. A callee that fails by itself returns an error value instead.
-/

namespace ScriptHost

/-- Why a call was rejected. -/
inductive Rejection where
  | wrongCount (expected found : Nat)
  /-- The argument at a position, counted from zero, is of another kind than needed. -/
  | wrongKind (position : Nat) (expected found : Kind)
deriving DecidableEq, Repr

def Rejection.message : Rejection → String
  | wrongCount expected found =>
    "wrong number of arguments: expected " ++ toString expected ++ ", got " ++ toString found
  | wrongKind position expected found =>
    "invalid type for argument " ++ toString position ++ ": expected " ++ expected.name ++
      ", found " ++ found.name

end ScriptHost
