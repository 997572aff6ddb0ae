import ScriptHost.Proofs.Storing
/-!
# Copying is storing the tree

A value is copied in one traversal, which keeps the unfinished copies of the
arrays it is inside of. It does what writing out the tree of the value and
storing it does. So a copy has the tree of the original, and it reaches the
arrays that were made for it and no others.
-/

namespace ScriptHost

namespace Heap

variable {h h' h₁ h₂ : Heap} {v c : Value} {r : Ref}

theorem scoped_unfold (h : Heap) (path : List Ref) (v : Value) :
    (h.unfold path v).Scoped path.length := by
  induction path, v using traversal_induct h with
  | atom path a => simp
  | ancestor path r up hr =>
    obtain ⟨hlt, _⟩ := List.idxOf?_eq_some_iff.1 hr
    rw [unfold_array_of_idxOf? hr]
    simpa using hlt
  | array path r hr ih =>
    rw [unfold_array_of_not_mem hr]
    simpa using ih
  | map path m ih =>
    rw [unfold_map, Tree.scoped_map]
    intro e he
    rw [Dict.entries_map] at he
    obtain ⟨e', he', rfl⟩ := List.mem_map.1 he
    exact ih e' he'
  | error path p ih => simpa using ih

theorem lookup_of_idxOf? {copying : List (Ref × Ref)} {up : Nat}
    (hr : (copying.map Prod.fst).idxOf? r = some up) :
    ∃ s, copying.lookup r = some s ∧ (copying.map Prod.snd)[up]? = some s := by
  induction copying generalizing up with
  | nil => simp at hr
  | cons e copying ih =>
    obtain ⟨r', s'⟩ := e
    rw [List.map_cons, List.idxOf?_cons] at hr
    by_cases he : r' = r
    · rw [if_pos (beq_iff_eq.2 he), Option.some.injEq] at hr
      subst he hr
      exact ⟨s', List.lookup_cons_self, rfl⟩
    · rw [if_neg (beq_iff_eq.not.2 he), Option.map_eq_some_iff] at hr
      obtain ⟨up, hup, rfl⟩ := hr
      obtain ⟨s, hs, hget⟩ := ih hup
      have hne : (r == r') = false := beq_eq_false_iff_ne.2 (Ne.symm he)
      refine ⟨s, ?_, hget⟩
      rw [List.lookup_cons, hne]
      exact hs

theorem lookup_eq_none_of_not_mem {copying : List (Ref × Ref)}
    (hr : r ∉ copying.map Prod.fst) : copying.lookup r = none := by
  rw [List.lookup_eq_none_iff]
  intro e he
  have hne : r ≠ e.1 := by
    rintro rfl
    exact hr (List.mem_map_of_mem he)
  simpa using hne

/-- Copying a value does what storing its tree does. The arrays that are being copied are those
that the tree is written out inside of, and their unfinished copies those that it is stored
inside of. -/
theorem copyUnder_eq_storeInside (old : Heap) (copying : List (Ref × Ref)) (v : Value) :
    old.copyUnder copying v =
      (old.unfold (copying.map Prod.fst) v).storeInside (copying.map Prod.snd) := by
  generalize hpath : copying.map Prod.fst = path
  induction path, v using traversal_induct old generalizing copying with
  | atom path a =>
    funext h
    rw [copyUnder_atom, unfold_atom, Tree.storeInside_atom]
  | ancestor path r up hr =>
    obtain ⟨s, hs, hup⟩ := lookup_of_idxOf? (hpath ▸ hr)
    funext h
    rw [copyUnder_array_of_lookup hs, unfold_array_of_idxOf? hr, Tree.storeInside_ancestor hup]
  | array path r hr ih =>
    have hnone : copying.lookup r = none := lookup_eq_none_of_not_mem (hpath ▸ hr)
    funext h
    obtain ⟨s, h₁, halloc⟩ : ∃ s h₁, h.alloc [] = (s, h₁) := ⟨_, _, rfl⟩
    have hparts : (old.items r).map (old.copyUnder ((r, s) :: copying)) =
        ((old.items r).map (old.unfold (r :: path))).map
          (Tree.storeInside (s :: copying.map Prod.snd)) := by
      rw [List.map_map]
      apply List.map_congr_left
      intro w hw
      apply ih w hw
      rw [List.map_cons, hpath]
    obtain ⟨vs, h₂, hvs⟩ : ∃ vs h₂, inTurn ((old.items r).map
        (old.copyUnder ((r, s) :: copying))) h₁ = (vs, h₂) := ⟨_, _, rfl⟩
    rw [unfold_array_of_not_mem hr, copyUnder_array_of_alloc hnone halloc hvs,
      Tree.storeInside_array halloc (hparts ▸ hvs)]
  | map path m ih =>
    have hparts : m.map (old.copyUnder copying) =
        (m.map (old.unfold path)).map (Tree.storeInside (copying.map Prod.snd)) := by
      rw [Dict.map_map]
      apply Dict.map_congr
      intro e he
      exact ih e he copying hpath
    funext h
    rw [copyUnder_map, unfold_map, Tree.storeInside_map, hparts]
  | error path p ih =>
    funext h
    rw [copyUnder_error, unfold_error, Tree.storeInside_error, ih copying hpath]

theorem copy_eq_storeInside (h : Heap) (v : Value) : h.copy v = (h.tree v).storeInside [] h := by
  rw [copy, copyUnder_eq_storeInside]
  rfl

/-! ### What a copy is -/

theorem stored_copy (hcopy : h.copy v = (c, h')) : h.Stored [] (h.tree v) c h' := by
  have hstored : h.Stored [] (h.tree v) (h.copy v).1 (h.copy v).2 := by
    rw [copy_eq_storeInside]
    exact stored_storeInside
      ⟨.nil, fun _ hr => (List.not_mem_nil hr).elim, h.scoped_unfold [] v⟩
  rwa [hcopy] at hstored

theorem extends_copy (hcopy : h.copy v = (c, h')) : h.Extends h' :=
  (stored_copy hcopy).grows

theorem tree_copy (hcopy : h.copy v = (c, h')) : h'.tree c = h.tree v :=
  (stored_copy hcopy).unfold_eq h' fun _ _ _ => rfl

/-- The paths to arrays of the original that meet no array twice lead in the copy to the arrays
that were made, in the order in which they were made. -/
theorem follow?_copy (hcopy : h.copy v = (c, h')) :
    (h.tree v).arrayPaths.map (h'.follow? c) = (h.made h').map fun r => some (.array r) :=
  (stored_copy hcopy).follow?_eq h' fun _ _ _ => rfl

/-- The copy reaches the arrays that were made for it, and no others. -/
theorem reaches_copy_iff (hcopy : h.copy v = (c, h')) :
    h'.Reaches c (.array r) ↔ r ∈ h.made h' := by
  constructor
  · intro hr
    obtain ⟨p, hp, hnodup⟩ := hr.exists_nodup
    have hmem : p ∈ (h.tree v).arrayPaths := by
      rw [← tree_copy hcopy, mem_arrayPaths_tree]
      exact ⟨⟨r, hp⟩, hnodup⟩
    have hmade := List.mem_map_of_mem (f := h'.follow? c) hmem
    rw [follow?_copy hcopy, hp] at hmade
    simpa using hmade
  · intro hr
    have hmade := List.mem_map_of_mem (f := fun r => some (Value.array r)) hr
    rw [← follow?_copy hcopy, List.mem_map] at hmade
    obtain ⟨p, _, hp⟩ := hmade
    exact ⟨p, hp⟩

end Heap

end ScriptHost
