import ScriptHost.Heap
/-!
# Copies of values

A copy shares no array with the value it was made from. Every array is copied
where it is met, and while this goes on the array is kept with its unfinished
copy, so that an array inside itself becomes a copy inside itself.
-/

namespace ScriptHost

namespace Heap

variable {α : Type}

/-- Carries out one action after the other. -/
def inTurn : List (Heap → α × Heap) → Heap → List α × Heap
  | [], h => ([], h)
  | act :: acts, h =>
    let (a, h) := act h
    let (as, h) := inTurn acts h
    (a :: as, h)

def rowInTurn {keys : List String} : Dict.Row (Heap → α × Heap) keys → Heap → Dict.Row α keys × Heap
  | .nil, h => (.nil, h)
  | .cons k act rest, h =>
    let (a, h) := act h
    let (as, h) := rowInTurn rest h
    (.cons k a as, h)

/-- Carries out the actions of a dictionary in the order of the keys. -/
def mapInTurn (acts : Dict (Heap → α × Heap)) (h : Heap) : Dict α × Heap :=
  let (row, h) := rowInTurn acts.row h
  (⟨acts.keys, acts.sorted, row⟩, h)

theorem rowInTurn_eq {keys : List String} (row : Dict.Row (Heap → α × Heap) keys) (h : Heap) :
    ((rowInTurn row h).1.entries.map Prod.snd, (rowInTurn row h).2) =
      inTurn (row.entries.map Prod.snd) h := by
  induction row generalizing h with
  | nil => rfl
  | cons k act rest ih =>
    simp only [rowInTurn, Dict.Row.entries, List.map_cons, inTurn, ← ih]

theorem mapInTurn_eq (acts : Dict (Heap → α × Heap)) (h : Heap) :
    ((mapInTurn acts h).1.values, (mapInTurn acts h).2) = inTurn acts.values h :=
  rowInTurn_eq acts.row h

theorem not_mem_of_lookup {r : Ref} {copying : List (Ref × Ref)} (hr : copying.lookup r = none) :
    r ∉ copying.map Prod.fst := by
  rw [List.lookup_eq_none_iff] at hr
  intro hmem
  obtain ⟨e, he, rfl⟩ := List.mem_map.1 hmem
  simpa using hr e he

/-- A copy of a value of the heap `old`, where the arrays in `copying` are being copied already,
each with its copy. A copy is empty until its elements are made. They are made from the elements
in `old`, which copying does not change. -/
def copyUnder (old : Heap) (copying : List (Ref × Ref)) : Value → Heap → Value × Heap
  | .atom a, h => (.atom a, h)
  | .array r, h =>
    match _hp : copying.lookup r with
    | some s => (.array s, h)
    | none =>
      let (s, h) := h.alloc []
      let (items, h) := inTurn ((old.items r).attach.map fun ⟨v, _⟩ =>
        copyUnder old ((r, s) :: copying) v) h
      (.array s, h.write s items)
  | .map m, h =>
    let acts := m.pmap (fun v (_ : sizeOf v < sizeOf (Value.map m)) => copyUnder old copying v)
      fun _ he => Value.sizeOf_lt_map he
    let (n, h) := mapInTurn acts h
    (.map n, h)
  | .error p, h =>
    let (v, h) := copyUnder old copying p h
    (.error v, h)
termination_by v => (old.unvisited (copying.map Prod.fst), sizeOf v)
decreasing_by
  · next hv _ =>
    exact Prod.Lex.left _ _ (unvisited_cons_lt (mem_of_mem_items hv) (not_mem_of_lookup _hp))
  · next hv _ => exact Prod.Lex.right _ hv
  · exact Prod.Lex.right _ (Value.sizeOf_lt_error p)

variable {old h h₁ h₂ : Heap} {copying : List (Ref × Ref)} {r s : Ref}

@[simp] theorem copyUnder_atom (a : Atom) : old.copyUnder copying (.atom a) h = (.atom a, h) := by
  rw [copyUnder]

theorem copyUnder_array_of_lookup (hr : copying.lookup r = some s) :
    old.copyUnder copying (.array r) h = (.array s, h) := by
  rw [copyUnder]
  split <;> simp_all

theorem copyUnder_array_of_alloc {vs : List Value} (hr : copying.lookup r = none)
    (halloc : h.alloc [] = (s, h₁))
    (hvs : inTurn ((old.items r).map (old.copyUnder ((r, s) :: copying))) h₁ = (vs, h₂)) :
    old.copyUnder copying (.array r) h = (.array s, h₂.write s vs) := by
  rw [copyUnder]
  split
  · simp_all
  · simp only [List.map_attach_eq_pmap, List.pmap_eq_map, halloc, hvs]

@[simp] theorem copyUnder_map (m : Dict Value) :
    old.copyUnder copying (.map m) h =
      (.map (mapInTurn (m.map (old.copyUnder copying)) h).1,
        (mapInTurn (m.map (old.copyUnder copying)) h).2) := by
  rw [copyUnder, Dict.pmap_eq_map]

@[simp] theorem copyUnder_error (p : Value) :
    old.copyUnder copying (.error p) h =
      (.error (old.copyUnder copying p h).1, (old.copyUnder copying p h).2) := by
  rw [copyUnder]

def copy (h : Heap) (v : Value) : Value × Heap :=
  h.copyUnder [] v h

end Heap

end ScriptHost
