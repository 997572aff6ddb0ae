import ScriptHost.Callable
import ScriptHost.Native
/-!
# Signatures of host functions

A host function with native parameters becomes a callable by its signature.
The callable rejects a call with the wrong number of arguments, then extracts
the arguments from left to right and rejects the first that is of the wrong
kind, and only then runs the function and wraps what it returns.
-/

namespace ScriptHost

/-- The types of the parameters of a host function, and the shape of what it returns. -/
structure Signature where
  params : List NativeType
  returns : ReturnShape
deriving DecidableEq, Repr

/-- The native arguments for a list of parameter types. -/
abbrev Arguments : List NativeType → Type
  | [] => Unit
  | t :: ts => t.Carrier × Arguments ts

namespace Arguments

/-- Extracts the arguments from a position on. -/
def extract (h : Heap) (position : Nat) : (ts : List NativeType) → List Value →
    Except Rejection (Arguments ts)
  | [], _ => .ok ()
  | _ :: ts, [] => .error (.wrongCount (position + ts.length + 1) position)
  | t :: ts, v :: vs =>
    match t.extractArgument h position v with
    | .error reason => .error reason
    | .ok x =>
      match extract h (position + 1) ts vs with
      | .error reason => .error reason
      | .ok xs => .ok (x, xs)

/-- Makes the script values of native arguments. -/
def wrap : (ts : List NativeType) → Arguments ts → Action (List Value)
  | [], () => .done []
  | t :: ts, (x, xs) => do
    let v ← t.wrap x
    let vs ← wrap ts xs
    return v :: vs

end Arguments

namespace Signature

abbrev HostFunction (s : Signature) : Type :=
  Arguments s.params → Action s.returns.Carrier

def arity (s : Signature) : Arity :=
  .exact s.params.length

def adapt (s : Signature) (f : s.HostFunction) : Callable :=
  .native s.arity fun args => do
    if args.length ≠ s.params.length then
      return .error (.wrongCount s.params.length args.length)
    match Arguments.extract (← Action.getHeap) 0 s.params args with
    | .error reason => return .error reason
    | .ok xs =>
      let x ← f xs
      let v ← s.returns.wrap x
      return .ok v

/-- The callable of a host function that only computes. -/
def lift (s : Signature) (f : Arguments s.params → s.returns.Carrier) : Callable :=
  s.adapt fun xs => .done (f xs)

/-- The name of a signature: the letters of its parameters and of what it returns. -/
def name (s : Signature) : String :=
  "func_a" ++ String.join (s.params.map NativeType.code) ++ "_r" ++ s.returns.code

end Signature

end ScriptHost
