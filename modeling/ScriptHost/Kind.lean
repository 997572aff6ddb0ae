/-!
# Kinds of values

The ten kinds a script value can have, with the names that scripts and
diagnostics use for them.
-/

namespace ScriptHost

/-- The kind of a value, without its content. -/
inductive Kind where
  | undefined
  | bool
  | int
  | float
  | string
  | bytes
  | array
  | map
  | error
  | builtin
deriving DecidableEq, Repr, Inhabited

namespace Kind

/-- Every kind, in the order of the type's constructors. -/
def all : List Kind :=
  [undefined, bool, int, float, string, bytes, array, map, error, builtin]

/-- The name that scripts see. -/
def name : Kind → String
  | undefined => "undefined"
  | bool => "bool"
  | int => "int"
  | float => "float"
  | string => "string"
  | bytes => "bytes"
  | array => "array"
  | map => "immutable-map"
  | error => "error"
  | builtin => "builtin-function"

/-- The name under which a kind is stored in binary form. -/
def tag : Kind → String
  | undefined => "Undefined"
  | bool => "Bool"
  | int => "Int"
  | float => "Float"
  | string => "String"
  | bytes => "Bytes"
  | array => "Array"
  | map => "ImmutableMap"
  | error => "Error"
  | builtin => "Builtin"

/-- Values of a composite kind contain other values. -/
def isComposite : Kind → Bool
  | array | map | error => true
  | _ => false

def ofName? (s : String) : Option Kind :=
  all.find? (·.name == s)

theorem mem_all (k : Kind) : k ∈ all := by
  cases k <;> decide

theorem name_injective {k l : Kind} (h : k.name = l.name) : k = l := by
  revert h
  cases k <;> cases l <;> decide

@[simp] theorem ofName?_name (k : Kind) : ofName? k.name = some k := by
  cases k <;> decide

end Kind

end ScriptHost
