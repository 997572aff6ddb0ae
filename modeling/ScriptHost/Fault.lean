import ScriptHost.Operator
import ScriptHost.Rejection
/-!
# Faults

What can go wrong with an operation on values, and where it went wrong.
-/

namespace ScriptHost

/-- Why an operation on values has no result. -/
inductive Fault where
  | invalidOperator (op : Operator) (lhs rhs : Kind)
  | divisionByZero
  | invalidShift (count : Int64)
  | indexOutOfBounds (index length : Nat)
  | call (reason : Rejection)
deriving DecidableEq

namespace Fault

def message : Fault → String
  | invalidOperator op lhs rhs =>
    "invalid operator: " ++ lhs.name ++ " " ++ op.symbol ++ " " ++ rhs.name
  | divisionByZero => "division by zero"
  | invalidShift count => "invalid shift count: " ++ toString count.toInt
  | indexOutOfBounds index length =>
    "index out of bounds: " ++ toString index ++ " (length " ++ toString length ++ ")"
  | call reason => reason.message

def isInvalidOperator : Fault → Bool
  | invalidOperator .. => true
  | _ => false

structure Context where
  /-- The function or module that was evaluated. -/
  source : Option String
  /-- The calls that led there, the innermost first. -/
  frames : List String

/-- The text of a context: its source, and a line for every call. -/
def Context.text (c : Context) : String :=
  let source :=
    match c.source with
    | some s => "in " ++ s
    | none => ""
  if c.frames.isEmpty then source
  else source ++ "\n" ++ String.join (c.frames.map fun f => "  called from " ++ f ++ "\n")

end Fault

end ScriptHost
