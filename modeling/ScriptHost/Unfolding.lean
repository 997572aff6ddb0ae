import ScriptHost.Heap
import ScriptHost.Tree
/-!
# Unfolding a value

The unfolding of a value reads its arrays from the heap and writes them out
as a tree. It keeps the path of arrays it is inside of, innermost first, and
stops at an array that is on the path, so it ends on every heap.
-/

namespace ScriptHost

namespace Heap

/-- The tree of a value, where the arrays on `path` are being written out already. -/
def unfold (h : Heap) (path : List Ref) : Value → Tree
  | .atom a => .atom a
  | .array r =>
    match _hp : path.idxOf? r with
    | some up => .ancestor up
    | none => .array ((h.items r).attach.map fun ⟨v, _⟩ => unfold h (r :: path) v)
  | .map m =>
    .map (m.pmap (fun v (_ : sizeOf v < sizeOf (Value.map m)) => unfold h path v)
      fun _ he => Value.sizeOf_lt_map he)
  | .error p => .error (unfold h path p)
termination_by v => (h.unvisited path, sizeOf v)
decreasing_by
  · next hv =>
    exact Prod.Lex.left _ _
      (unvisited_cons_lt (mem_of_mem_items hv) (by simpa using _hp))
  · next hv => exact Prod.Lex.right _ hv
  · exact Prod.Lex.right _ (Value.sizeOf_lt_error p)

def tree (h : Heap) (v : Value) : Tree :=
  h.unfold [] v

variable {h : Heap} {path : List Ref}

@[simp] theorem unfold_atom (a : Atom) : h.unfold path (.atom a) = .atom a := by
  rw [unfold]

theorem unfold_array_of_not_mem {r : Ref} (hr : r ∉ path) :
    h.unfold path (.array r) = .array ((h.items r).map (h.unfold (r :: path))) := by
  have : path.idxOf? r = none := by simpa using hr
  rw [unfold]
  split
  · simp_all
  · simp

theorem unfold_array_of_idxOf? {r : Ref} {up : Nat} (hr : path.idxOf? r = some up) :
    h.unfold path (.array r) = .ancestor up := by
  rw [unfold]
  split <;> simp_all

@[simp] theorem unfold_map (m : Dict Value) :
    h.unfold path (.map m) = .map (m.map (h.unfold path)) := by
  rw [unfold, Dict.pmap_eq_map]

@[simp] theorem unfold_error (p : Value) :
    h.unfold path (.error p) = .error (h.unfold path p) := by
  rw [unfold]

end Heap

end ScriptHost
