import ScriptHost.Value
/-!
# Finite trees of values

A tree is a value with its arrays written out. An array inside itself is not
written out again: the tree holds the distance to the enclosing occurrence.
Functions on trees are folds, so they need no guard against cycles.
-/

namespace ScriptHost

/-- A value with its arrays written out. -/
inductive Tree where
  | atom (a : Atom)
  | array (items : List Tree)
  /-- An enclosing array once more: `0` is the innermost one, `1` the next. -/
  | ancestor (up : Nat)
  | map (m : Dict Tree)
  | error (payload : Tree)

namespace Tree

/-- What a fold makes of each kind of node. -/
structure Algebra (α : Type) where
  atom : Atom → α
  array : List α → α
  ancestor : Nat → α
  map : Dict α → α
  error : α → α

mutual

/-- Replaces every node, from the leaves upward, by what the algebra makes of it. -/
def fold {α : Type} (f : Algebra α) : Tree → α
  | atom a => f.atom a
  | array ts => f.array (foldList f ts)
  | ancestor up => f.ancestor up
  | map ⟨keys, sorted, row⟩ => f.map ⟨keys, sorted, foldRow f row⟩
  | error p => f.error (fold f p)

def foldList {α : Type} (f : Algebra α) : List Tree → List α
  | [] => []
  | t :: ts => fold f t :: foldList f ts

def foldRow {α : Type} (f : Algebra α) {keys : List String} :
    Dict.Row Tree keys → Dict.Row α keys
  | .nil => .nil
  | .cons k t rest => .cons k (fold f t) (foldRow f rest)

end

variable {α : Type} (f : Algebra α)

theorem foldList_eq_map (ts : List Tree) : foldList f ts = ts.map (fold f) := by
  induction ts with
  | nil => rfl
  | cons t ts ih => simp [foldList, ih]

theorem foldRow_eq_map {keys : List String} (row : Dict.Row Tree keys) :
    foldRow f row = row.map (fold f) := by
  induction row with
  | nil => rfl
  | cons k t rest ih => simp [foldRow, Dict.Row.map, ih]

@[simp] theorem fold_atom (a : Atom) : fold f (atom a) = f.atom a := by
  simp [fold]

@[simp] theorem fold_array (ts : List Tree) : fold f (array ts) = f.array (ts.map (fold f)) := by
  simp [fold, foldList_eq_map]

@[simp] theorem fold_ancestor (up : Nat) : fold f (ancestor up) = f.ancestor up := by
  simp [fold]

@[simp] theorem fold_map (m : Dict Tree) : fold f (map m) = f.map (m.map (fold f)) := by
  obtain ⟨keys, sorted, row⟩ := m
  simp [fold, foldRow_eq_map, Dict.map]

@[simp] theorem fold_error (p : Tree) : fold f (error p) = f.error (fold f p) := by
  simp [fold]

theorem sizeOf_lt_array {ts : List Tree} {t : Tree} (h : t ∈ ts) :
    sizeOf t < sizeOf (array ts) := by
  have := List.sizeOf_lt_of_mem h
  simp only [array.sizeOf_spec]
  omega

theorem sizeOf_lt_map {m : Dict Tree} {e : String × Tree} (h : e ∈ m.entries) :
    sizeOf e.2 < sizeOf (map m) := by
  obtain ⟨keys, sorted, row⟩ := m
  have : sizeOf e.2 < sizeOf row := Dict.Row.sizeOf_lt h
  simp only [map.sizeOf_spec, Dict.mk.sizeOf_spec]
  omega

/-- To prove a property of every tree it is enough to prove it of each node whose parts
have it. -/
@[elab_as_elim, induction_eliminator]
theorem induct {P : Tree → Prop} (atom : ∀ a, P (.atom a))
    (array : ∀ ts : List Tree, (∀ t ∈ ts, P t) → P (.array ts))
    (ancestor : ∀ up, P (.ancestor up))
    (map : ∀ m : Dict Tree, (∀ e ∈ m.entries, P e.2) → P (.map m))
    (error : ∀ p, P p → P (.error p)) (t : Tree) : P t :=
  match t with
  | .atom a => atom a
  | .array ts => array ts fun t _ => induct atom array ancestor map error t
  | .ancestor up => ancestor up
  | .map m => map m fun e _ => induct atom array ancestor map error e.2
  | .error p => error p (induct atom array ancestor map error p)
termination_by sizeOf t
decreasing_by
  · exact sizeOf_lt_array ‹_›
  · exact sizeOf_lt_map ‹_›
  · simp

end Tree

end ScriptHost
