import ScriptHost.Action
import ScriptHost.Arity
/-!
# Callables

A callable takes a list of arguments and has an arity. It is a function of
the host, or such a function under a name, or a callable whose calls are
traced.
-/

namespace ScriptHost

structure TracerId where
  index : Nat
deriving DecidableEq, Repr

/-- Something that can be called with values. -/
inductive Callable where
  /-- A function of the host. It runs only on as many arguments as its arity accepts. -/
  | native (arity : Arity) (body : List Value → Action Outcome)
  | named (name : String) (inner : Callable)
  /-- A callable whose calls are recorded under a name. -/
  | traced (name : String) (inner : Callable) (tracer : TracerId)

namespace Callable

/-- A function of the host that takes any number of arguments. -/
def variadic (body : List Value → Action Outcome) : Callable :=
  native (.variadic 0) body

def arity : Callable → Arity
  | native a _ => a
  | named _ inner => inner.arity
  | traced _ inner _ => inner.arity

def debug : Callable → String
  | native a _ => "NativeFn(" ++ toString a ++ ")"
  | named name _ => "Builtin(" ++ name ++ ")"
  | traced name _ _ => "Traced(" ++ name ++ ")"

end Callable

end ScriptHost
