import ScriptHost.Action
/-!
# Native types

The types that functions of the host use for their parameters and results,
and how their values are made from script values and back. Nothing is
converted on the way: an integer is never taken for a float.
-/

namespace ScriptHost

/-- A type that can be a parameter of a host function. -/
inductive NativeType where
  | int
  | float
  | string
  | bool
  | bytes
  | strings
deriving DecidableEq, Repr

namespace NativeType

abbrev Carrier : NativeType → Type
  | int => Int64
  | float => Float
  | string => String
  | bool => Bool
  | bytes => List UInt8
  | strings => List String

/-- The kind of script values that the type is made from. -/
def kind : NativeType → Kind
  | int => .int
  | float => .float
  | string => .string
  | bool => .bool
  | bytes => .bytes
  | strings => .array

/-- The native value in a script value. A list of texts is made from an array of nothing but
texts. -/
def extract? (h : Heap) : (t : NativeType) → Value → Option t.Carrier
  | int, v => v.int?
  | float, v => v.float?
  | string, v => v.string?
  | bool, v => v.bool?
  | bytes, v => v.bytes?
  | strings, .array r => (h.items r).mapM Value.string?
  | strings, _ => none

def extractArgument (h : Heap) (t : NativeType) (position : Nat) (v : Value) :
    Except Rejection t.Carrier :=
  match t.extract? h v with
  | some x => .ok x
  | none => .error (.wrongKind position t.kind v.kind)

/-- Makes the script value of a native value. A list becomes a new array. -/
def wrap : (t : NativeType) → t.Carrier → Action Value
  | int, n => .done (.int n)
  | float, x => .done (.float x)
  | string, s => .done (.string s)
  | bool, b => .done (.bool b)
  | bytes, b => .done (.bytes b)
  | strings, l => .newArray (l.map .string)

def code : NativeType → String
  | int => "i"
  | float => "f"
  | string => "s"
  | bool => "b"
  | bytes => "y"
  | strings => "vs"

end NativeType

/-- A type that can be the result of a host function. -/
inductive ResultType where
  | native (t : NativeType)
  | ints
deriving DecidableEq, Repr

namespace ResultType

abbrev Carrier : ResultType → Type
  | native t => t.Carrier
  | ints => List Int64

/-- Makes the script value of a result. A list becomes a new array. -/
def wrap : (t : ResultType) → t.Carrier → Action Value
  | native t, x => t.wrap x
  | ints, l => .newArray (l.map .int)

def code : ResultType → String
  | native t => t.code
  | ints => "vi"

end ResultType

/-- Makes the script value of a result, or an error value of the message that is there instead. -/
def wrapOrFail {α : Type} (wrap : α → Action Value) : Except String α → Action Value
  | .ok x => wrap x
  | .error message => .done (.failure message)

/-- What a host function hands back. -/
inductive ReturnShape where
  | unit
  | value (t : ResultType)
  /-- Nothing, or a message if it failed. -/
  | status
  /-- A result, or a message if it failed. -/
  | fallible (t : ResultType)
deriving DecidableEq, Repr

namespace ReturnShape

abbrev Carrier : ReturnShape → Type
  | unit => Unit
  | value t => t.Carrier
  | status => Except String Unit
  | fallible t => Except String t.Carrier

/-- Makes the script value of what a host function returned. A message becomes an error value,
and success without a result becomes the truth value `true`. -/
def wrap : (s : ReturnShape) → s.Carrier → Action Value
  | unit, () => .done .undefined
  | value t, x => t.wrap x
  | status, result => wrapOrFail (fun () => .done (.bool true)) result
  | fallible t, result => wrapOrFail t.wrap result

def code : ReturnShape → String
  | unit => ""
  | value t => t.code
  | status => "e"
  | fallible t => t.code ++ "e"

end ReturnShape

end ScriptHost
