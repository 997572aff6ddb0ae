import ScriptHost.Fault
import ScriptHost.Value
/-!
# The heap of arrays

Every array is a cell of the heap, found by its handle. New arrays get new
cells, so handles given out earlier keep their meaning.
-/

namespace ScriptHost

/-- The arrays that exist, in the order of their creation. -/
structure Heap where
  cells : Array (List Value)

namespace Heap

instance : EmptyCollection Heap where
  emptyCollection := ⟨#[]⟩

instance : Inhabited Heap where
  default := ∅

def size (h : Heap) : Nat :=
  h.cells.size

/-- A handle belongs to a heap when it names one of its arrays. -/
instance : Membership Ref Heap where
  mem h r := r.index < h.size

instance (r : Ref) (h : Heap) : Decidable (r ∈ h) :=
  inferInstanceAs (Decidable (r.index < h.size))

def refs (h : Heap) : List Ref :=
  (List.range h.size).map Ref.mk

def items (h : Heap) (r : Ref) : List Value :=
  h.cells[r.index]?.getD []

def alloc (h : Heap) (items : List Value) : Ref × Heap :=
  (⟨h.size⟩, ⟨h.cells.push items⟩)

def write (h : Heap) (r : Ref) (items : List Value) : Heap :=
  ⟨h.cells.setIfInBounds r.index items⟩

def push (h : Heap) (r : Ref) (v : Value) : Heap :=
  h.write r (h.items r ++ [v])

def get? (h : Heap) (r : Ref) (i : Nat) : Option Value :=
  (h.items r)[i]?

/-- Replaces the element at a position, if the position is within the array. -/
def set? (h : Heap) (r : Ref) (i : Nat) (v : Value) : Option Heap :=
  if i < (h.items r).length then some (h.write r ((h.items r).set i v)) else none

/-- Replaces the element at a position, or says which position is not within the array. -/
def assign (h : Heap) (r : Ref) (i : Nat) (v : Value) : Except Fault Heap :=
  match h.set? r i v with
  | some h => .ok h
  | none => .error (.indexOutOfBounds i (h.items r).length)

theorem mem_iff {r : Ref} {h : Heap} : r ∈ h ↔ r.index < h.size := Iff.rfl

@[simp] theorem mem_refs {r : Ref} {h : Heap} : r ∈ h.refs ↔ r ∈ h := by
  obtain ⟨i⟩ := r
  simp [refs, mem_iff]

theorem items_eq_nil_of_not_mem {r : Ref} {h : Heap} (hr : r ∉ h) : h.items r = [] := by
  have : h.cells[r.index]? = none := by
    simpa [mem_iff, size] using hr
  simp [items, this]

theorem mem_of_mem_items {r : Ref} {h : Heap} {v : Value} (hv : v ∈ h.items r) : r ∈ h := by
  by_cases hr : r ∈ h
  · exact hr
  · simp [items_eq_nil_of_not_mem hr] at hv

/-! ### Reading after a change -/

@[simp] theorem size_alloc (h : Heap) (items : List Value) :
    (h.alloc items).2.size = h.size + 1 := by
  simp [alloc, size]

@[simp] theorem items_alloc_self (h : Heap) (items : List Value) :
    (h.alloc items).2.items (h.alloc items).1 = items := by
  simp [alloc, Heap.items, size]

theorem items_alloc_of_mem {r : Ref} {h : Heap} (items : List Value) (hr : r ∈ h) :
    (h.alloc items).2.items r = h.items r := by
  have hr : r.index < h.cells.size := hr
  simp only [alloc, Heap.items, Array.getElem?_push_lt hr, Array.getElem?_eq_getElem hr]

theorem alloc_not_mem (h : Heap) (items : List Value) : (h.alloc items).1 ∉ h := by
  simp [alloc, mem_iff]

theorem alloc_mem (h : Heap) (items : List Value) : (h.alloc items).1 ∈ (h.alloc items).2 := by
  rw [mem_iff, size_alloc]
  exact Nat.lt_succ_self h.size

theorem eq_of_mem_alloc {r : Ref} {h : Heap} {items : List Value} (hr : r ∈ (h.alloc items).2)
    (hnew : r ∉ h) : r = (h.alloc items).1 := by
  obtain ⟨i⟩ := r
  simp only [mem_iff, size_alloc] at hr hnew
  simp only [alloc, Ref.mk.injEq]
  omega

@[simp] theorem size_write (h : Heap) (r : Ref) (items : List Value) :
    (h.write r items).size = h.size := by
  simp [write, size]

@[simp] theorem items_write_self {r : Ref} {h : Heap} (items : List Value) (hr : r ∈ h) :
    (h.write r items).items r = items := by
  have hr : r.index < h.cells.size := hr
  simp [write, Heap.items, hr]

@[simp] theorem items_write_of_ne {r s : Ref} {h : Heap} (items : List Value) (hrs : r ≠ s) :
    (h.write r items).items s = h.items s := by
  have : r.index ≠ s.index := fun e => hrs (by cases r; cases s; simp_all)
  simp [write, Heap.items, Array.getElem?_setIfInBounds_ne this]

@[simp] theorem mem_write {r s : Ref} {h : Heap} {items : List Value} :
    s ∈ h.write r items ↔ s ∈ h := by
  simp [mem_iff]

/-! ### Arrays not yet entered -/

theorem countP_not_mem_cons_lt {α : Type} [BEq α] [LawfulBEq α] {a : α} {l path : List α}
    (ha : a ∈ l) (hp : a ∉ path) :
    l.countP (fun b => b ∉ a :: path) < l.countP (fun b => b ∉ path) := by
  have hle (k : List α) : k.countP (fun b => b ∉ a :: path) ≤ k.countP (fun b => b ∉ path) :=
    List.countP_mono_left (by simp)
  obtain ⟨l₁, l₂, rfl⟩ := List.append_of_mem ha
  have h₁ := hle l₁
  have h₂ := hle l₂
  have hq : decide (a ∉ a :: path) = false := by simp
  have hr : decide (a ∉ path) = true := by simpa using hp
  simp only [List.countP_append, List.countP_cons, hq, hr]
  simp only [Bool.false_eq_true, if_false, if_true]
  omega

/-- How many arrays of the heap are not on a path. A traversal that keeps its path free of
repetitions can enter only so many arrays more. -/
def unvisited (h : Heap) (path : List Ref) : Nat :=
  h.refs.countP fun r => r ∉ path

theorem unvisited_cons_lt {r : Ref} {h : Heap} {path : List Ref} (hr : r ∈ h) (hp : r ∉ path) :
    h.unvisited (r :: path) < h.unvisited path :=
  countP_not_mem_cons_lt (mem_refs.2 hr) hp

end Heap

end ScriptHost
