import ScriptHost.Decimal.Layout
import ScriptHost.Text.Quoted
import ScriptHost.Text.Utf8
import ScriptHost.Unfolding
/-!
# The display text of a value

The text that scripts see. Texts inside it are quoted, bytes are shown as
the text they stand for, and an array inside itself is shown as `[...]`.
-/

namespace ScriptHost

def Atom.display : Atom → String
  | undefined => "<undefined>"
  | bool b => if b then "true" else "false"
  | int n => toString n.toInt
  | float x => Decimal.Layout.plain.text x
  | string s => Text.quote s
  | bytes b => Text.ofBytes b
  | builtin f => "<builtin-function:" ++ f.name ++ ">"

namespace Tree

/-- Builds the display text from the leaves upward. -/
def displayAlgebra : Algebra String where
  atom := Atom.display
  array parts := "[" ++ ", ".intercalate parts ++ "]"
  ancestor _ := "[...]"
  map m := "\x7b" ++ ", ".intercalate (m.entries.map fun e => e.1 ++ ": " ++ e.2) ++ "\x7d"
  error p := "error: " ++ p

def display (t : Tree) : String :=
  t.fold displayAlgebra

theorem display_atom (a : Atom) : (atom a).display = a.display := by
  rw [display, fold_atom]
  rfl

theorem display_array (ts : List Tree) :
    (array ts).display = "[" ++ ", ".intercalate (ts.map display) ++ "]" := by
  rw [display, fold_array]
  rfl

end Tree

namespace Heap

def display (h : Heap) (v : Value) : String :=
  (h.tree v).display

theorem display_atom (h : Heap) (a : Atom) : h.display (.atom a) = a.display := by
  rw [display, tree, unfold_atom, Tree.display_atom]

end Heap

end ScriptHost
