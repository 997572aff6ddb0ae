import ScriptHost.Heap
/-!
# Truth of values in conditions

Which values count as false. Of the floats only NaN does, so zero counts as
true.
-/

namespace ScriptHost

def Atom.isFalsy : Atom → Bool
  | undefined => true
  | bool b => !b
  | int n => n == 0
  | float x => x.isNaN
  | string s => s.isEmpty
  | bytes b => b.isEmpty
  | builtin _ => false

def Heap.isFalsy (h : Heap) : Value → Bool
  | .atom a => a.isFalsy
  | .array r => (h.items r).isEmpty
  | .map m => m.isEmpty
  | .error _ => true

end ScriptHost
