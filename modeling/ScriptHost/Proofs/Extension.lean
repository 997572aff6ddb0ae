import ScriptHost.Heap
/-!
# Heaps that grow

A heap extends another when it has its arrays with their elements. The arrays
that are new in it are known by their numbers, so what is made in several
steps is what was made in each of them, one step after the other.
-/

namespace ScriptHost

namespace Heap

/-- The second heap has the arrays of the first with their elements. -/
structure Extends (h h' : Heap) : Prop where
  size_le : h.size ≤ h'.size
  items_eq : ∀ r ∈ h, h'.items r = h.items r

/-- The arrays that were made between two heaps, the oldest first. -/
def made (h h' : Heap) : List Ref :=
  (List.range' h.size (h'.size - h.size)).map Ref.mk

/-- The third heap has the arrays that were made between the first two with their elements. -/
def KeepsMade (h h' k : Heap) : Prop :=
  ∀ r ∈ h', r ∉ h → k.items r = h'.items r

variable {h h' h₁ h₂ k : Heap} {path : List Ref} {r : Ref} {v w : Value} {vs : List Value}

/-! ### Extensions -/

theorem Extends.refl (h : Heap) : h.Extends h :=
  ⟨Nat.le_refl _, fun _ _ => rfl⟩

theorem Extends.mem (hh : h.Extends h') (hr : r ∈ h) : r ∈ h' :=
  mem_iff.2 (Nat.lt_of_lt_of_le (mem_iff.1 hr) hh.size_le)

theorem Extends.trans (hh : h.Extends h₁) (hh' : h₁.Extends h') : h.Extends h' where
  size_le := Nat.le_trans hh.size_le hh'.size_le
  items_eq r hr := (hh'.items_eq r (hh.mem hr)).trans (hh.items_eq r hr)

theorem extends_alloc (h : Heap) (items : List Value) : h.Extends (h.alloc items).2 where
  size_le := by simp
  items_eq _ hr := items_alloc_of_mem items hr

theorem Extends.write (hh : h.Extends h') (items : List Value) (hr : r ∉ h) :
    h.Extends (h'.write r items) where
  size_le := by simpa using hh.size_le
  items_eq s hs := by
    have hne : r ≠ s := fun heq => hr (heq ▸ hs)
    rw [items_write_of_ne items hne]
    exact hh.items_eq s hs

/-! ### Arrays made -/

theorem mem_made (hh : h.Extends h') : r ∈ h.made h' ↔ r ∈ h' ∧ r ∉ h := by
  have hle := hh.size_le
  obtain ⟨i⟩ := r
  simp only [made, List.mem_map, List.mem_range'_1, Ref.mk.injEq, mem_iff]
  constructor
  · rintro ⟨i, hi, rfl⟩
    omega
  · intro hi
    exact ⟨i, by omega, rfl⟩

theorem nodup_made (h h' : Heap) : (h.made h').Nodup := by
  refine List.Pairwise.map Ref.mk ?_ List.nodup_range'
  rintro a b hab heq
  exact hab (Ref.mk.inj heq)

@[simp] theorem made_self (h : Heap) : h.made h = [] := by
  simp [made]

@[simp] theorem made_alloc (h : Heap) (items : List Value) :
    h.made (h.alloc items).2 = [(h.alloc items).1] := by
  simp [made, alloc, size]

@[simp] theorem made_write (items : List Value) : h.made (h'.write r items) = h.made h' := by
  simp [made]

theorem made_append (hh : h.Extends h₁) (hh' : h₁.Extends h') :
    h.made h₁ ++ h₁.made h' = h.made h' := by
  obtain ⟨m, hm⟩ := Nat.le.dest hh.size_le
  obtain ⟨n, hn⟩ := Nat.le.dest hh'.size_le
  have hsum : h.size + m + n - h.size = m + n := by omega
  rw [made, made, made, ← hn, ← hm, hsum, Nat.add_sub_cancel_left, Nat.add_sub_cancel_left,
    ← List.range'_append_1, List.map_append]

theorem KeepsMade.left (hk : h.KeepsMade h' k) (hh' : h₁.Extends h') : h.KeepsMade h₁ k := by
  intro r hr hnot
  rw [hk r (hh'.mem hr) hnot, hh'.items_eq r hr]

theorem KeepsMade.right (hk : h.KeepsMade h' k) (hh : h.Extends h₁) : h₁.KeepsMade h' k :=
  fun r hr hnot => hk r hr fun hmem => hnot (hh.mem hmem)

end Heap

end ScriptHost
