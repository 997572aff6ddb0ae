import ScriptHost.Dict
import ScriptHost.Kind
/-!
# Script values

A value is an atom, a handle to an array, an immutable dictionary of values,
or an error around a payload. Arrays are shared and mutable: a value holds
only the handle, and the elements live in a heap.
-/

namespace ScriptHost

/-- The handle of an array. Two handles are equal when they share storage. -/
structure Ref where
  index : Nat
deriving DecidableEq, Repr

/-- The identity of a registered callable. -/
structure FunctionId where
  index : Nat
deriving DecidableEq, Repr

/-- A callable that scripts can hold, under the name it was registered with. -/
structure Builtin where
  name : String
  function : FunctionId
deriving DecidableEq, Repr

inductive Atom where
  | undefined
  | bool (b : Bool)
  | int (n : Int64)
  | float (x : Float)
  | string (s : String)
  | bytes (b : List UInt8)
  | builtin (f : Builtin)
deriving DecidableEq

inductive Value where
  | atom (a : Atom)
  | array (r : Ref)
  | map (m : Dict Value)
  /-- An error, conventionally around a message. -/
  | error (payload : Value)

namespace Value

@[match_pattern] abbrev undefined : Value := atom .undefined

@[match_pattern] abbrev bool (b : Bool) : Value := atom (.bool b)

@[match_pattern] abbrev int (n : Int64) : Value := atom (.int n)

@[match_pattern] abbrev float (x : Float) : Value := atom (.float x)

@[match_pattern] abbrev string (s : String) : Value := atom (.string s)

@[match_pattern] abbrev bytes (b : List UInt8) : Value := atom (.bytes b)

@[match_pattern] abbrev builtin (f : Builtin) : Value := atom (.builtin f)

instance : Inhabited Value where
  default := undefined

def failure (message : String) : Value :=
  error (string message)

end Value

def Atom.kind : Atom → Kind
  | undefined => .undefined
  | bool _ => .bool
  | int _ => .int
  | float _ => .float
  | string _ => .string
  | bytes _ => .bytes
  | builtin _ => .builtin

namespace Value

def kind : Value → Kind
  | atom a => a.kind
  | array _ => .array
  | map _ => .map
  | error _ => .error

def isError : Value → Bool
  | error _ => true
  | _ => false

def bool? : Value → Option Bool
  | bool b => some b
  | _ => none

/-- The integer, if the value is one. A float is not converted. -/
def int? : Value → Option Int64
  | int n => some n
  | _ => none

/-- The float, if the value is one. An integer is not converted. -/
def float? : Value → Option Float
  | float x => some x
  | _ => none

def string? : Value → Option String
  | string s => some s
  | _ => none

def bytes? : Value → Option (List UInt8)
  | bytes b => some b
  | _ => none

def array? : Value → Option Ref
  | array r => some r
  | _ => none

def map? : Value → Option (Dict Value)
  | map m => some m
  | _ => none

def builtin? : Value → Option Builtin
  | builtin f => some f
  | _ => none

def payload? : Value → Option Value
  | error p => some p
  | _ => none

theorem sizeOf_lt_map {m : Dict Value} {e : String × Value} (h : e ∈ m.entries) :
    sizeOf e.2 < sizeOf (map m) := by
  obtain ⟨keys, sorted, row⟩ := m
  have : sizeOf e.2 < sizeOf row := Dict.Row.sizeOf_lt h
  simp only [map.sizeOf_spec, Dict.mk.sizeOf_spec]
  omega

theorem sizeOf_lt_map_of_mem_values {m : Dict Value} {v : Value} (h : v ∈ m.values) :
    sizeOf v < sizeOf (map m) := by
  obtain ⟨e, he, rfl⟩ := List.mem_map.1 h
  exact sizeOf_lt_map he

theorem sizeOf_lt_error (p : Value) : sizeOf p < sizeOf (error p) := by
  simp

/-- To prove a property of every value it is enough to prove it of atoms and of arrays,
of dictionaries whose values have it, and of errors whose payload has it. -/
@[elab_as_elim, induction_eliminator]
theorem induct {P : Value → Prop} (atom : ∀ a, P (.atom a)) (array : ∀ r, P (.array r))
    (map : ∀ m : Dict Value, (∀ e ∈ m.entries, P e.2) → P (.map m))
    (error : ∀ p, P p → P (.error p)) (v : Value) : P v :=
  match v with
  | .atom a => atom a
  | .array r => array r
  | .map m => map m fun e _ => induct atom array map error e.2
  | .error p => error p (induct atom array map error p)
termination_by sizeOf v
decreasing_by
  · exact sizeOf_lt_map ‹_›
  · exact sizeOf_lt_error p

end Value

end ScriptHost
