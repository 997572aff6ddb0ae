import ScriptHost.Decimal.Layout
import ScriptHost.Text.Quoted
import ScriptHost.Unfolding
/-!
# The debug text of a value

The text for the developer of a host. It names the kind of every part, so it
tells apart what the display text may confuse.
-/

namespace ScriptHost

def Builtin.debug (f : Builtin) : String :=
  "Builtin(" ++ f.name ++ ")"

def Atom.debug : Atom → String
  | undefined => "Undefined"
  | bool b => "Bool(" ++ (if b then "true" else "false") ++ ")"
  | int n => "Int(" ++ toString n.toInt ++ ")"
  | float x => "Float(" ++ Decimal.Layout.explicit.text x ++ ")"
  | string s => "String(" ++ Text.quote s ++ ")"
  | bytes b => "Bytes([" ++ ", ".intercalate (b.map fun n => toString n.toNat) ++ "])"
  | builtin f => f.debug

namespace Tree

/-- Builds the debug text from the leaves upward. -/
def debugAlgebra : Algebra String where
  atom := Atom.debug
  array parts := "Array([" ++ ", ".intercalate parts ++ "])"
  ancestor _ := "Array([...])"
  map m :=
    "ImmutableMap(\x7b" ++
      ", ".intercalate (m.entries.map fun e => Text.quote e.1 ++ ": " ++ e.2) ++ "\x7d)"
  error p := "Error(" ++ p ++ ")"

def debug (t : Tree) : String :=
  t.fold debugAlgebra

end Tree

def Heap.debug (h : Heap) (v : Value) : String :=
  (h.tree v).debug

end ScriptHost
