/-!
# Binary operators

The operators between two values, with the symbols that scripts use.
-/

namespace ScriptHost

/-- A test of how two things are ordered. -/
inductive Comparison where
  | less
  | greater
  | lessEq
  | greaterEq
deriving DecidableEq, Repr

def Comparison.holds : Comparison → Ordering → Bool
  | less, o => o == .lt
  | greater, o => o == .gt
  | lessEq, o => o != .gt
  | greaterEq, o => o != .lt

inductive Operator where
  | add
  | sub
  | mul
  | quo
  | rem
  | and
  | or
  | xor
  /-- Clears the bits of the left operand that are set in the right one. -/
  | andNot
  | shl
  | shr
  | compare (c : Comparison)
deriving DecidableEq, Repr

namespace Operator

/-- Every operator, in the order of the symbol table. -/
def all : List Operator :=
  [add, sub, mul, quo, rem, and, or, xor, andNot, shl, shr,
    compare .less, compare .greater, compare .lessEq, compare .greaterEq]

def symbol : Operator → String
  | add => "+"
  | sub => "-"
  | mul => "*"
  | quo => "/"
  | rem => "%"
  | and => "&"
  | or => "|"
  | xor => "^"
  | andNot => "&^"
  | shl => "<<"
  | shr => ">>"
  | compare .less => "<"
  | compare .greater => ">"
  | compare .lessEq => "<="
  | compare .greaterEq => ">="

/-- The name under which an operator is stored in binary form. -/
def tag : Operator → String
  | add => "Add"
  | sub => "Sub"
  | mul => "Mul"
  | quo => "Quo"
  | rem => "Rem"
  | and => "And"
  | or => "Or"
  | xor => "Xor"
  | andNot => "AndNot"
  | shl => "Shl"
  | shr => "Shr"
  | compare .less => "Less"
  | compare .greater => "Greater"
  | compare .lessEq => "LessEq"
  | compare .greaterEq => "GreaterEq"

def isComparison : Operator → Bool
  | compare _ => true
  | _ => false

def ofSymbol? (s : String) : Option Operator :=
  all.find? (·.symbol == s)

theorem mem_all (op : Operator) : op ∈ all := by
  cases op with
  | compare c => cases c <;> decide
  | _ => decide

@[simp] theorem ofSymbol?_symbol (op : Operator) : ofSymbol? op.symbol = some op := by
  cases op with
  | compare c => cases c <;> decide
  | _ => decide

end Operator

end ScriptHost
