/-!
# Arities

How many arguments a callable takes: a fixed number, or at least some number.
-/

namespace ScriptHost

/-- The number of arguments that a callable accepts. -/
inductive Arity where
  | exact (n : Nat)
  /-- `n` arguments or more. -/
  | variadic (n : Nat)
deriving DecidableEq, Repr

namespace Arity

def least : Arity → Nat
  | exact n | variadic n => n

def accepts : Arity → Nat → Bool
  | exact n, count => count == n
  | variadic n, count => n ≤ count

/-- `2` for exactly two arguments, `2+` for two or more. -/
protected def toString : Arity → String
  | exact n => toString n
  | variadic n => toString n ++ "+"

instance : ToString Arity where
  toString := Arity.toString

/-- The name under which the shape of an arity is stored in binary form. -/
def tag : Arity → String
  | exact _ => "Exact"
  | variadic _ => "Variadic"

@[simp] theorem accepts_exact {n count : Nat} :
    (exact n).accepts count = true ↔ count = n := by
  simp [accepts]

@[simp] theorem accepts_variadic {n count : Nat} :
    (variadic n).accepts count = true ↔ n ≤ count := by
  simp [accepts]

end Arity

end ScriptHost
