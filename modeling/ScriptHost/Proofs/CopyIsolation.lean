import ScriptHost.Proofs.Copying
import ScriptHost.Proofs.Observation
import ScriptHost.Proofs.SameTree
/-!
# A copy is on its own

A copy reaches only arrays that were made for it. A change of other arrays is
therefore not observed of the copy, and a change of the copy is not observed of
the values that were there before. The copy stays on its own until something
that reaches an older array is stored in it.
-/

namespace ScriptHost

namespace Heap

/-- Every array that the value reaches in the second heap was made after the first one. -/
def Apart (h k : Heap) (v : Value) : Prop :=
  ∀ r, k.Reaches v (.array r) → r ∈ k ∧ r ∉ h

/-- A change that stores in an array that `c` reaches stores values apart from `h` only. -/
def KeepsApart (h : Heap) (c : Value) (k : Heap) (d : Change) : Prop :=
  ∀ t, d.target? = some t → k.Reaches c (.array t) → ∀ y ∈ d.stored, h.Apart k y

/-- Each change of a run stores in the arrays that `c` reaches values apart from `h` only. -/
def RunKeepsApart (h : Heap) (c : Value) : Heap → List Change → Prop
  | _, [] => True
  | k, d :: ds => h.KeepsApart c k d ∧ h.RunKeepsApart c (k.change d) ds

variable {h h' k : Heap} {c v w : Value} {d : Change} {ds : List Change}

theorem Apart.owns (hc : h.Apart k c) : k.Owns c :=
  fun r hr => (hc r hr).1

theorem apart_copy (hcopy : h.copy v = (c, h')) : h.Apart h' c := by
  intro r hr
  exact (mem_made (extends_copy hcopy)).1 ((reaches_copy_iff hcopy).1 hr)

theorem Apart.change (hc : h.Apart k c) (hd : h.KeepsApart c k d) :
    h.Apart (k.change d) c := by
  intro r hr
  rcases hr.of_change hc.owns with hr | ⟨t, ht, hct, y, hy, hyr⟩
  · obtain ⟨hmem, hnew⟩ := hc r hr
    exact ⟨mem_change hmem, hnew⟩
  · obtain ⟨hmem, hnew⟩ := hd t ht hct y hy r hyr
    exact ⟨mem_change hmem, hnew⟩

theorem Apart.run (hc : h.Apart k c) (hds : h.RunKeepsApart c k ds) : h.Apart (k.run ds) c := by
  induction ds generalizing k with
  | nil => exact hc
  | cons d ds ih =>
    obtain ⟨hd, hds⟩ := hds
    exact ih (hc.change hd) hds

/-- Changes of older arrays are not observed of values apart from them. -/
theorem indistinct_run_of_apart (hds : ∀ d ∈ ds, ∀ t, d.target? = some t → t ∈ h) :
    Indistinct (h.Apart k) k (k.run ds) := by
  apply indistinct_of_agrees
  intro v hv r hr
  obtain ⟨hmem, hnew⟩ := hv r hr
  apply items_run_of_ne hmem
  intro d hd ht
  exact hnew (hds d hd r ht)

/-- Changes of newer arrays are not observed of the values that were there before. -/
theorem Extends.indistinct_run (hk : h.Extends k)
    (hds : ∀ d ∈ ds, ∀ t, d.target? = some t → t ∉ h) : Indistinct h.Owns h (k.run ds) := by
  apply indistinct_of_agrees
  intro v hv r hr
  have hmem := hv r hr
  rw [items_run_of_ne (hk.mem hmem) fun d hd ht => hds d hd r ht hmem]
  exact hk.items_eq r hmem

/-- A value that is apart from an older heap is isolated from it: neither is a change of the one
observed of the other, nor the other way round, until something of the old heap is stored in the
value. -/
theorem Extends.isolates (hgrow : h.Extends h') (hc : h.Apart h' c) :
    (∀ ds, (∀ d ∈ ds, ∀ t, d.target? = some t → t ∉ h) → Indistinct h.Owns h (h'.run ds)) ∧
      ∀ before k, h.RunKeepsApart c h' before → h'.run before = k →
        h.Apart k c ∧
          ∀ ds, (∀ d ∈ ds, ∀ t, d.target? = some t → t ∈ h) →
            Indistinct (h.Apart k) k (k.run ds) := by
  refine ⟨fun ds hds => hgrow.indistinct_run hds, ?_⟩
  rintro before k hbefore rfl
  exact ⟨hc.run hbefore, fun ds hds => indistinct_run_of_apart hds⟩

/-- A copy leaves the heap as it was and reaches new arrays only. Later changes of arrays that are
not of the old heap are not observed of the values of the old heap. Changes of arrays of the old
heap are not observed of the copy, also after other changes, until one of these stores in the
copy a value that is not apart from the old heap. The copy has the same callables. -/
theorem copy_isolated (hcopy : h.copy v = (c, h')) :
    h.Extends h' ∧ h.Apart h' c ∧
      (∀ ds, (∀ d ∈ ds, ∀ t, d.target? = some t → t ∉ h) → Indistinct h.Owns h (h'.run ds)) ∧
      (∀ before k, h.RunKeepsApart c h' before → h'.run before = k →
        h.Apart k c ∧
          ∀ ds, (∀ d ∈ ds, ∀ t, d.target? = some t → t ∈ h) →
            Indistinct (h.Apart k) k (k.run ds)) ∧
      ∀ p f, h'.follow? c p = some (.builtin f) ↔ h.follow? v p = some (.builtin f) := by
  have hgrow := extends_copy hcopy
  have hapart := apart_copy hcopy
  have halike : h.Alike h' v c := alike_of_tree_eq (tree_copy hcopy).symm
  obtain ⟨hold, hcopied⟩ := hgrow.isolates hapart
  refine ⟨hgrow, hapart, hold, hcopied, ?_⟩
  intro p f
  exact halike.follow?_eq_atom_iff p (.builtin f)

/-- An array that holds itself. -/
def loop : Heap := ⟨#[[.array ⟨0⟩]]⟩

/-- The array that holds itself, and its copy. -/
def loopCopied : Heap := ⟨#[[.array ⟨0⟩], [.array ⟨1⟩]]⟩

theorem copy_loop : loop.copy (.array ⟨0⟩) = (.array ⟨1⟩, loopCopied) := by
  have htree : loop.tree (.array ⟨0⟩) = .array [.ancestor 0] := by
    rw [tree, unfold_array_of_not_mem List.not_mem_nil]
    simp [loop, items, unfold_array_of_idxOf?]
  rw [copy_eq_storeInside, htree]
  rfl

theorem apart_atom (a : Atom) : h.Apart k (.atom a) := by
  rintro r ⟨p, hp⟩
  cases p <;> simp [part?] at hp

/-- What is pushed to the copy is not observed of the array, and what is then pushed to the array
is not observed of the copy. -/
theorem copy_isolated_loop :
    Indistinct loop.Owns loop (loopCopied.push ⟨1⟩ (.int 5)) ∧
      (loop.Apart (loopCopied.push ⟨1⟩ (.int 5)) (.array ⟨1⟩) ∧
        Indistinct (loop.Apart (loopCopied.push ⟨1⟩ (.int 5))) (loopCopied.push ⟨1⟩ (.int 5))
          ((loopCopied.push ⟨1⟩ (.int 5)).push ⟨0⟩ (.int 7))) := by
  obtain ⟨_, _, hold, hcopy, _⟩ := copy_isolated copy_loop
  refine ⟨hold [.push ⟨1⟩ (.int 5)] ?_, ?_⟩
  · rintro d hd t ht
    obtain rfl := List.mem_singleton.1 hd
    cases ht
    decide
  · have hkeeps : loop.KeepsApart (.array ⟨1⟩) loopCopied (.push ⟨1⟩ (.int 5)) := by
      rintro t _ _ y hy
      obtain rfl := List.mem_singleton.1 hy
      exact apart_atom _
    obtain ⟨hapart, hobserved⟩ := hcopy [.push ⟨1⟩ (.int 5)] _ ⟨hkeeps, trivial⟩ rfl
    refine ⟨hapart, hobserved [.push ⟨0⟩ (.int 7)] ?_⟩
    rintro d hd t ht
    obtain rfl := List.mem_singleton.1 hd
    cases ht
    decide

end Heap

end ScriptHost
