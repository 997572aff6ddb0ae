import ScriptHost.Copy
import ScriptHost.Proofs.Extension
import ScriptHost.Proofs.TreePath
/-!
# Storing trees

Storing a tree makes one new array for each array of the tree, in the order in
which the tree is read, and leaves the older arrays alone. What is stored is
read back as the same tree, also from a later heap that has kept the new
arrays.
-/

namespace ScriptHost

namespace Tree

/-- Which distances a tree may hold where it stands inside of some number of arrays. -/
def scopeAlgebra : Algebra (Nat → Prop) where
  atom _ := fun _ => True
  array parts := fun depth => ∀ part ∈ parts, part (depth + 1)
  ancestor up := fun depth => up < depth
  map m := fun depth => ∀ e ∈ m.entries, e.2 depth
  error p := p

/-- Every distance is to an array of the tree or to one of `depth` arrays around it. -/
def Scoped (t : Tree) (depth : Nat) : Prop :=
  t.fold scopeAlgebra depth

/-- What a node of a tree does in order to be stored: it is given the new arrays it is inside of,
the innermost first, and the heap. -/
abbrev Storing : Type :=
  List Ref → Heap → Value × Heap

/-- Stores a tree from the leaves upward. A new array is empty until its elements are stored. -/
def storeAlgebra : Algebra Storing where
  atom a := fun _ h => (.atom a, h)
  array parts := fun path h =>
    let (r, h) := h.alloc []
    let (items, h) := Heap.inTurn (parts.map fun store => store (r :: path)) h
    (.array r, h.write r items)
  ancestor up := fun path h =>
    match path[up]? with
    | some r => (.array r, h)
    | none => (.undefined, h)
  map m := fun path h =>
    let (n, h) := Heap.mapInTurn (m.map fun store => store path) h
    (.map n, h)
  error p := fun path h =>
    let (v, h) := p path h
    (.error v, h)

/-- Stores a tree that stands inside of the arrays of `path`, the innermost first. -/
def storeInside (path : List Ref) (t : Tree) (h : Heap) : Value × Heap :=
  t.fold storeAlgebra path h

variable {t : Tree} {ts : List Tree} {m : Dict Tree} {depth : Nat} {path : List Ref} {h : Heap}

/-! ### Distances -/

@[simp] theorem scoped_atom (a : Atom) : (atom a).Scoped depth := by
  simp [Scoped, scopeAlgebra]

@[simp] theorem scoped_array : (array ts).Scoped depth ↔ ∀ t ∈ ts, t.Scoped (depth + 1) := by
  simp [Scoped, scopeAlgebra]

@[simp] theorem scoped_ancestor {up : Nat} : (ancestor up).Scoped depth ↔ up < depth := by
  simp [Scoped, scopeAlgebra]

@[simp] theorem scoped_map : (map m).Scoped depth ↔ ∀ e ∈ m.entries, e.2.Scoped depth := by
  simp [Scoped, scopeAlgebra]

@[simp] theorem scoped_error : (error t).Scoped depth ↔ t.Scoped depth := by
  simp [Scoped, scopeAlgebra]

/-! ### Storing each kind of tree -/

theorem storeInside_atom (a : Atom) : storeInside path (atom a) h = (.atom a, h) := by
  simp [storeInside, storeAlgebra]

theorem storeInside_ancestor {up : Nat} {r : Ref} (hr : path[up]? = some r) :
    storeInside path (ancestor up) h = (.array r, h) := by
  simp [storeInside, storeAlgebra, hr]

theorem storeInside_error :
    storeInside path (error t) h =
      (.error (storeInside path t h).1, (storeInside path t h).2) := by
  simp [storeInside, storeAlgebra]

theorem storeInside_map :
    storeInside path (map m) h =
      (.map (Heap.mapInTurn (m.map (storeInside path)) h).1,
        (Heap.mapInTurn (m.map (storeInside path)) h).2) := by
  simp only [storeInside, fold_map, storeAlgebra, Dict.map_map]
  rfl

theorem storeInside_array {r : Ref} {h₁ h₂ : Heap} {vs : List Value} (halloc : h.alloc [] = (r, h₁))
    (hvs : Heap.inTurn (ts.map (storeInside (r :: path))) h₁ = (vs, h₂)) :
    storeInside path (array ts) h = (.array r, h₂.write r vs) := by
  have hunfold : storeInside path (array ts) h =
      let out := Heap.inTurn (ts.map (storeInside ((h.alloc []).1 :: path))) (h.alloc []).2
      (.array (h.alloc []).1, out.2.write (h.alloc []).1 out.1) := by
    simp only [storeInside, fold_array, storeAlgebra, List.map_map]
    rfl
  rw [hunfold, halloc, hvs]

end Tree

namespace Heap

variable {h h' h₁ h₂ k : Heap} {path : List Ref} {r : Ref} {v w : Value} {vs : List Value}

/-- The value, found in the second heap, is the tree stored in the first one inside of `path`. -/
structure Stored (h : Heap) (path : List Ref) (t : Tree) (v : Value) (h' : Heap) : Prop where
  grows : h.Extends h'
  unfold_eq : ∀ k, h.KeepsMade h' k → k.unfold path v = t
  /-- The arrays of the tree were made in order. -/
  follow?_eq : ∀ k, h.KeepsMade h' k →
    t.arrayPaths.map (k.follow? v) = (h.made h').map fun r => some (.array r)

/-- The values are the trees stored one after the other. -/
structure StoredAll (h : Heap) (path : List Ref) (ts : List Tree) (vs : List Value) (h' : Heap) :
    Prop where
  grows : h.Extends h'
  unfold_eq : ∀ k, h.KeepsMade h' k → vs.map (k.unfold path) = ts
  follow?_eq : ∀ k, h.KeepsMade h' k →
    ((ts.map Tree.arrayPaths).zipWith (fun paths v => paths.map (k.follow? v)) vs).flatten =
      (h.made h').map fun r => some (.array r)

variable {t : Tree} {ts : List Tree}

theorem StoredAll.nil : h.StoredAll path [] [] h where
  grows := .refl h
  unfold_eq _ _ := rfl
  follow?_eq _ _ := by simp

theorem StoredAll.cons (ht : h.Stored path t v h₁) (hts : h₁.StoredAll path ts vs h') :
    h.StoredAll path (t :: ts) (v :: vs) h' where
  grows := ht.grows.trans hts.grows
  unfold_eq k hk := by
    rw [List.map_cons, ht.unfold_eq k (hk.left hts.grows),
      hts.unfold_eq k (hk.right ht.grows)]
  follow?_eq k hk := by
    rw [List.map_cons, List.zipWith_cons_cons, List.flatten_cons,
      ht.follow?_eq k (hk.left hts.grows), hts.follow?_eq k (hk.right ht.grows),
      ← List.map_append, made_append ht.grows hts.grows]

theorem map_follow?_branches {l : List (Step × List (List Step))}
    (hl : List.Forall₂ (fun e v => k.part? w e.1 = some v) l vs) :
    (Tree.branches l).map (k.follow? w) =
      ((l.map Prod.snd).zipWith (fun paths v => paths.map (k.follow? v)) vs).flatten := by
  induction hl with
  | nil => rfl
  | @cons e v l vs hv _ ih =>
    simp only [Tree.branches, List.flatMap_cons, List.map_append, List.map_map, List.map_cons,
      List.zipWith_cons_cons, List.flatten_cons]
    rw [← ih]
    congr 1
    apply List.map_congr_left
    intro p _
    simp [hv]

theorem stored_atom (a : Atom) : h.Stored path (.atom a) (.atom a) h where
  grows := .refl h
  unfold_eq _ _ := unfold_atom a
  follow?_eq _ _ := by simp [Tree.arrayPaths_atom]

theorem stored_ancestor {up : Nat} (hpath : path.Nodup) (hr : path[up]? = some r) :
    h.Stored path (.ancestor up) (.array r) h where
  grows := .refl h
  unfold_eq k _ := by
    obtain ⟨hlt, hr⟩ := List.getElem?_eq_some_iff.1 hr
    refine unfold_array_of_idxOf? (List.idxOf?_eq_some_iff.2 ⟨hlt, hr, ?_⟩)
    intro j hj hjr
    exact absurd (hpath.getElem_inj_iff.1 (hjr.trans hr.symm)) (Nat.ne_of_lt hj)
  follow?_eq _ _ := by simp [Tree.arrayPaths_ancestor]

theorem Stored.error (ht : h.Stored path t v h') : h.Stored path (.error t) (.error v) h' where
  grows := ht.grows
  unfold_eq k hk := by rw [unfold_error, ht.unfold_eq k hk]
  follow?_eq k hk := by
    have hpart : List.Forall₂ (fun e w => k.part? (.error v) e.1 = some w)
        [(.payload, t.arrayPaths)] [v] := .cons rfl .nil
    rw [Tree.arrayPaths_error, map_follow?_branches hpart, ← ht.follow?_eq k hk]
    simp

theorem forall₂_part?_array (hlen : ts.length = vs.length) (hr : k.items r = vs) :
    List.Forall₂ (fun e v => k.part? (.array r) e.1 = some v)
      (ts.mapIdx fun i t => (.item i, t.arrayPaths)) vs := by
  refine List.forall₂_iff_get.2 ⟨by simpa using hlen, ?_⟩
  intro i hi hi'
  simp [part?, get?, hr, List.getElem?_eq_getElem hi']

theorem forall₂_part?_map {m : Dict Tree} {n : Dict Value} (hkeys : n.keys = m.keys) :
    List.Forall₂ (fun e v => k.part? (.map n) e.1 = some v)
      (m.entries.map fun e => (.key e.1, e.2.arrayPaths)) n.values := by
  have hfst : n.entries.map Prod.fst = m.entries.map Prod.fst := by
    rw [Dict.map_fst_entries, Dict.map_fst_entries, hkeys]
  have hlen : n.entries.length = m.entries.length := by
    simpa only [List.length_map] using congrArg List.length hfst
  refine List.forall₂_iff_get.2 ⟨by simp [Dict.values, hlen], ?_⟩
  intro i hi hi'
  simp only [List.length_map] at hi
  have hi₂ : i < n.entries.length := hlen ▸ hi
  have hkey : (n.entries[i]).1 = (m.entries[i]).1 := by
    have hget := List.getElem_of_eq hfst (by rwa [List.length_map] : i < _)
    rwa [List.getElem_map, List.getElem_map] at hget
  have hpart := part?_map_key_of_mem (h := k) (List.getElem_mem hi₂)
  simpa [Dict.values, ← hkey] using hpart

theorem Stored.array (halloc : h.alloc [] = (r, h₁)) (hpath : ∀ s ∈ path, s ∈ h)
    (hts : h₁.StoredAll (r :: path) ts vs h₂) :
    h.Stored path (.array ts) (.array r) (h₂.write r vs) := by
  have hgrow : h.Extends h₁ := by simpa [halloc] using h.extends_alloc []
  have hmade : h.made h₁ = [r] := by simpa [halloc] using h.made_alloc []
  obtain ⟨hmem, hr⟩ := (mem_made hgrow).1 (hmade ▸ List.mem_singleton.2 rfl : r ∈ h.made h₁)
  have hitems (k : Heap) (hk : h.KeepsMade (h₂.write r vs) k) : k.items r = vs := by
    have hmem₂ := hts.grows.mem hmem
    rw [hk r (mem_write.2 hmem₂) hr, items_write_self vs hmem₂]
  have hkeeps (k : Heap) (hk : h.KeepsMade (h₂.write r vs) k) : h₁.KeepsMade h₂ k := by
    intro s hs hnot
    have hne : r ≠ s := fun heq => hnot (heq ▸ hmem)
    rw [hk s (mem_write.2 hs) fun hmem => hnot (hgrow.mem hmem), items_write_of_ne vs hne]
  have hnot : r ∉ path := by
    intro hmem
    exact hr (hpath r hmem)
  refine ⟨(hgrow.trans hts.grows).write vs hr, ?_, ?_⟩
  · intro k hk
    rw [unfold_array_of_not_mem hnot, hitems k hk, hts.unfold_eq k (hkeeps k hk)]
  · intro k hk
    have hlen : vs.length = ts.length := by
      simpa using congrArg List.length (hts.unfold_eq k (hkeeps k hk))
    have hparts := map_follow?_branches (forall₂_part?_array hlen.symm (hitems k hk))
    have hsnd : (ts.mapIdx fun i t => (Step.item i, t.arrayPaths)).map Prod.snd =
        ts.map Tree.arrayPaths :=
      List.ext_getElem (by simp) (by simp)
    rw [hsnd, hts.follow?_eq k (hkeeps k hk)] at hparts
    rw [Tree.arrayPaths_array, List.map_cons, made_write, ← made_append hgrow hts.grows, hmade]
    simpa using hparts

theorem Stored.map {m : Dict Tree} {n : Dict Value} (hkeys : n.keys = m.keys)
    (hts : h.StoredAll path m.values n.values h') : h.Stored path (.map m) (.map n) h' where
  grows := hts.grows
  unfold_eq k hk := by
    rw [unfold_map, Dict.eq_of_keys_eq_of_values_eq (n := m) (m := n.map _) hkeys]
    rw [Dict.values_map, hts.unfold_eq k hk]
  follow?_eq k hk := by
    have hsnd : (m.entries.map fun e => (Step.key e.1, e.2.arrayPaths)).map Prod.snd =
        m.values.map Tree.arrayPaths := by
      simp [Dict.values]
    rw [Tree.arrayPaths_map, map_follow?_branches (forall₂_part?_map hkeys), hsnd,
      hts.follow?_eq k hk]

/-- A tree can be stored inside of the arrays of `path` when they exist, none of them twice, and
when its distances lead to them or to its own arrays. -/
structure Storable (h : Heap) (path : List Ref) (t : Tree) : Prop where
  nodup : path.Nodup
  mem : ∀ r ∈ path, r ∈ h
  scope : t.Scoped path.length

theorem storedAll_inTurn
    (hall : ∀ t ∈ ts, ∀ h : Heap, h.Storable path t →
      h.Stored path t (t.storeInside path h).1 (t.storeInside path h).2)
    (hts : ∀ t ∈ ts, h.Storable path t) :
    h.StoredAll path ts (inTurn (ts.map (Tree.storeInside path)) h).1
      (inTurn (ts.map (Tree.storeInside path)) h).2 := by
  induction ts generalizing h with
  | nil => exact .nil
  | cons t ts ih =>
    have ht := hall t List.mem_cons_self h (hts t List.mem_cons_self)
    apply StoredAll.cons ht
    apply ih
    · intro u hu
      exact hall u (List.mem_cons_of_mem t hu)
    · intro u hu
      obtain ⟨nodup, mem, scope⟩ := hts u (List.mem_cons_of_mem t hu)
      refine ⟨nodup, ?_, scope⟩
      intro r hr
      exact ht.grows.mem (mem r hr)

theorem stored_storeInside (ht : h.Storable path t) :
    h.Stored path t (t.storeInside path h).1 (t.storeInside path h).2 := by
  induction t generalizing path h with
  | atom a =>
    rw [Tree.storeInside_atom]
    exact stored_atom a
  | ancestor up =>
    have hlt : up < path.length := by simpa using ht.scope
    have hr := List.getElem?_eq_getElem hlt
    rw [Tree.storeInside_ancestor hr]
    exact stored_ancestor ht.nodup hr
  | error t ih =>
    obtain ⟨nodup, mem, scope⟩ := ht
    rw [Tree.storeInside_error]
    exact (ih ⟨nodup, mem, by simpa using scope⟩).error
  | map m ih =>
    obtain ⟨nodup, mem, scope⟩ := ht
    rw [Tree.scoped_map] at scope
    have hall : h.StoredAll path m.values (inTurn (m.values.map (Tree.storeInside path)) h).1
        (inTurn (m.values.map (Tree.storeInside path)) h).2 := by
      apply storedAll_inTurn
      · intro t ht h hh
        obtain ⟨e, he, rfl⟩ := List.mem_map.1 ht
        exact ih e he hh
      · intro t ht
        obtain ⟨e, he, rfl⟩ := List.mem_map.1 ht
        exact ⟨nodup, mem, scope e he⟩
    rw [← Dict.values_map, ← mapInTurn_eq] at hall
    rw [Tree.storeInside_map]
    exact Stored.map rfl hall
  | array ts ih =>
    obtain ⟨nodup, mem, scope⟩ := ht
    rw [Tree.scoped_array] at scope
    have hnew := h.alloc_not_mem []
    rw [Tree.storeInside_array rfl rfl]
    apply Stored.array rfl mem
    apply storedAll_inTurn
    · intro t ht h hh
      exact ih t ht hh
    · intro t ht
      refine ⟨List.nodup_cons.2 ⟨?_, nodup⟩, ?_, scope t ht⟩
      · intro hr
        exact hnew (mem _ hr)
      intro s hs
      rcases List.mem_cons.1 hs with rfl | hs
      · simp [mem_iff, size]
      · exact (h.extends_alloc []).mem (mem s hs)

end Heap

end ScriptHost
