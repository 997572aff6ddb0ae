import ScriptHost.Proofs.TreePath
/-!
# Values with the same tree

The finite tree of a value tells all that can be found along its paths, those
that run round a cycle included. Two values with the same tree have the same
faces at the end of every path, and where the one comes back to an array it is
inside of, so does the other. The invariant is a list of pairs of arrays that
both sides are inside of, each pair with one tree above the pairs below it.
-/

namespace ScriptHost

namespace Heap

/-- The two values are written out as the same tree inside the paired arrays. -/
def SameTree (h h' : Heap) (path : List (Ref × Ref)) (v w : Value) : Prop :=
  h.unfold (path.map Prod.fst) v = h'.unfold (path.map Prod.snd) w

/-- No array is paired twice, and each pair was written out as the same tree. -/
inductive Matched (h h' : Heap) : List (Ref × Ref) → Prop where
  | nil : Matched h h' []
  | cons {r s : Ref} {path : List (Ref × Ref)} (rest : Matched h h' path)
      (left : r ∉ path.map Prod.fst) (right : s ∉ path.map Prod.snd)
      (same : h.SameTree h' path (.array r) (.array s)) : Matched h h' ((r, s) :: path)

/-- The pairs that both sides are inside of when they look at the parts of two values. -/
def inside (v w : Value) (path : List (Ref × Ref)) : List (Ref × Ref) :=
  match v, w with
  | .array r, .array s => (r, s) :: path
  | _, _ => path

variable {h h' : Heap} {v w a b : Value} {st : Step} {p q : List Step}
  {path : List (Ref × Ref)} {r s : Ref}

theorem mem_inside {e : Ref × Ref} (he : e ∈ inside v w path) :
    e ∈ path ∨ v = .array e.1 ∧ w = .array e.2 := by
  unfold inside at he
  split at he
  · rcases List.mem_cons.1 he with rfl | he
    · exact .inr ⟨rfl, rfl⟩
    · exact .inl he
  · exact .inl he

/-- Both values are arrays, each new to its side of the pairs, or neither is an array. -/
structure Fresh (v w : Value) (path : List (Ref × Ref)) : Prop where
  left : ∀ r ∈ v.array?, r ∉ path.map Prod.fst
  right : ∀ s ∈ w.array?, s ∉ path.map Prod.snd
  both : v.array?.isSome = w.array?.isSome

theorem unfold_eq_ancestor {path : List Ref} {up : Nat} (hv : h.unfold path v = .ancestor up) :
    ∃ r, v = .array r ∧ path.idxOf? r = some up := by
  cases v with
  | array r =>
    by_cases hr : r ∈ path
    · obtain ⟨i, hi, htree⟩ := exists_unfold_array_of_mem (h := h) hr
      rw [htree, Tree.ancestor.injEq] at hv
      exact ⟨r, rfl, hv ▸ hi⟩
    · simp [unfold_array_of_not_mem hr] at hv
  | atom a => simp at hv
  | map m => simp at hv
  | error p => simp at hv

theorem unfold_eq_array {path : List Ref} {ts : List Tree} (hv : h.unfold path v = .array ts) :
    ∃ r, v = .array r ∧ r ∉ path ∧ ts = (h.items r).map (h.unfold (r :: path)) := by
  cases v with
  | array r =>
    by_cases hr : r ∈ path
    · obtain ⟨i, _, htree⟩ := exists_unfold_array_of_mem (h := h) hr
      rw [htree] at hv
      cases hv
    · rw [unfold_array_of_not_mem hr, Tree.array.injEq] at hv
      exact ⟨r, rfl, hr, hv.symm⟩
  | atom a => simp at hv
  | map m => simp at hv
  | error p => simp at hv

/-! ### One side enters an array where the other does -/

theorem SameTree.fresh (hvw : h.SameTree h' path v w)
    (hv : ∀ r ∈ v.array?, r ∉ path.map Prod.fst) : Fresh v w path := by
  cases v with
  | array r =>
    rw [SameTree, unfold_array_of_not_mem (hv r rfl)] at hvw
    obtain ⟨s, rfl, hs, _⟩ := unfold_eq_array hvw.symm
    refine ⟨hv, ?_, rfl⟩
    rintro _ ⟨⟩
    exact hs
  | _ =>
    cases w with
    | array s =>
      by_cases hs : s ∈ path.map Prod.snd
      · obtain ⟨i, _, htree⟩ := exists_unfold_array_of_mem (h := h') hs
        simp [SameTree, htree] at hvw
      · simp [SameTree, unfold_array_of_not_mem hs] at hvw
    | _ => exact ⟨hv, fun _ hs => by simp [Value.array?] at hs, rfl⟩

theorem SameTree.mem_of_mem (hvw : h.SameTree h' path (.array r) w)
    (hr : r ∈ path.map Prod.fst) : ∃ s, w = .array s ∧ (r, s) ∈ path := by
  obtain ⟨up, hup, htree⟩ := exists_unfold_array_of_mem (h := h) hr
  rw [SameTree, htree] at hvw
  obtain ⟨s, rfl, hs⟩ := unfold_eq_ancestor hvw.symm
  obtain ⟨hlt, hfst, _⟩ := List.idxOf?_eq_some_iff.1 hup
  obtain ⟨_, hsnd, _⟩ := List.idxOf?_eq_some_iff.1 hs
  simp only [List.getElem_map, List.length_map] at hlt hfst hsnd
  refine ⟨s, rfl, ?_⟩
  have hpair : path[up] = (r, s) := by rw [← hfst, ← hsnd]
  exact hpair ▸ List.getElem_mem hlt

theorem Matched.exists_suffix (hpath : Matched h h' path) (hrs : (r, s) ∈ path) :
    ∃ rest, Matched h h' rest ∧ h.SameTree h' rest (.array r) (.array s) ∧
      r ∉ rest.map Prod.fst := by
  induction hpath with
  | nil => simp at hrs
  | @cons r' s' rest hrest left right same ih =>
    rcases List.mem_cons.1 hrs with heq | hrs
    · cases heq
      exact ⟨rest, hrest, same, left⟩
    · exact ih hrs

/-- Pairs are left until the value is new to those that remain. -/
theorem Matched.exists_fresh (hpath : Matched h h' path) (hvw : h.SameTree h' path v w) :
    ∃ rest, Matched h h' rest ∧ h.SameTree h' rest v w ∧ Fresh v w rest := by
  by_cases hv : ∃ r, v = .array r ∧ r ∈ path.map Prod.fst
  · obtain ⟨r, rfl, hr⟩ := hv
    obtain ⟨s, rfl, hrs⟩ := hvw.mem_of_mem hr
    obtain ⟨rest, hrest, hsame, hnot⟩ := hpath.exists_suffix hrs
    refine ⟨rest, hrest, hsame, hsame.fresh ?_⟩
    rintro _ ⟨⟩
    exact hnot
  · refine ⟨path, hpath, hvw, hvw.fresh ?_⟩
    intro r hr hmem
    cases v <;> simp [Value.array?] at hr
    exact hv ⟨r, by rw [hr], hmem⟩

theorem Fresh.map_fst_inside (hfresh : Fresh v w path) :
    (inside v w path).map Prod.fst = v.array?.toList ++ path.map Prod.fst := by
  obtain ⟨_, _, both⟩ := hfresh
  cases v <;> cases w <;> simp_all [inside, Value.array?]

theorem Fresh.map_snd_inside (hfresh : Fresh v w path) :
    (inside v w path).map Prod.snd = w.array?.toList ++ path.map Prod.snd := by
  obtain ⟨_, _, both⟩ := hfresh
  cases v <;> cases w <;> simp_all [inside, Value.array?]

theorem Matched.inside (hpath : Matched h h' path) (hvw : h.SameTree h' path v w)
    (hfresh : Fresh v w path) : Matched h h' (inside v w path) := by
  unfold Heap.inside
  split
  · exact .cons hpath (hfresh.left _ rfl) (hfresh.right _ rfl) hvw
  · exact hpath

/-! ### Parts and faces -/

theorem SameTree.map_part? (hvw : h.SameTree h' path v w) (hfresh : Fresh v w path) (st : Step) :
    (h.part? v st).map (h.unfold ((inside v w path).map Prod.fst)) =
      (h'.part? w st).map (h'.unfold ((inside v w path).map Prod.snd)) := by
  have htrees := congrArg (Tree.part? · st) hvw
  simpa only [part?_unfold hfresh.left, part?_unfold hfresh.right, ← hfresh.map_fst_inside,
    ← hfresh.map_snd_inside] using htrees

theorem SameTree.exists_part? (hvw : h.SameTree h' path v w) (hfresh : Fresh v w path)
    (ha : h.part? v st = some a) :
    ∃ b, h'.part? w st = some b ∧ h.SameTree h' (inside v w path) a b := by
  have hparts := hvw.map_part? hfresh st
  rw [ha, Option.map_some, eq_comm, Option.map_eq_some_iff] at hparts
  obtain ⟨b, hb, hab⟩ := hparts
  exact ⟨b, hb, hab.symm⟩

theorem SameTree.part?_eq_none (hvw : h.SameTree h' path v w) (hfresh : Fresh v w path)
    (ha : h.part? v st = none) : h'.part? w st = none := by
  have hparts := hvw.map_part? hfresh st
  rw [ha, Option.map_none, eq_comm, Option.map_eq_none_iff] at hparts
  exact hparts

theorem SameTree.face_eq (hvw : h.SameTree h' path v w) (hfresh : Fresh v w path) :
    h.face v = h'.face w := by
  have hboth := hfresh.both
  cases v with
  | array r =>
    cases w with
    | array s =>
      rw [SameTree, unfold_array_of_not_mem (hfresh.left r rfl),
        unfold_array_of_not_mem (hfresh.right s rfl), Tree.array.injEq] at hvw
      have hlen := congrArg List.length hvw
      simp only [List.length_map] at hlen
      simp only [face, hlen]
    | _ => simp [Value.array?] at hboth
  | atom a => cases w <;> simp_all [SameTree, face, Value.array?]
  | map m =>
    cases w with
    | map n =>
      simp only [SameTree, unfold_map, Tree.map.injEq] at hvw
      have hkeys := congrArg Dict.keys hvw
      simp only [Dict.keys_map] at hkeys
      simp only [face, hkeys]
    | _ => simp_all [SameTree, Value.array?]
  | error p => cases w <;> simp_all [SameTree, face, Value.array?]

/-- Inside of some matched pairs the two values are the same tree. -/
def Alike (h h' : Heap) (v w : Value) : Prop :=
  ∃ path, Matched h h' path ∧ h.SameTree h' path v w

theorem alike_of_tree_eq (hvw : h.tree v = h'.tree w) : h.Alike h' v w :=
  ⟨[], .nil, hvw⟩

theorem Alike.exists_part? (hvw : h.Alike h' v w) (ha : h.part? v st = some a) :
    ∃ b, h'.part? w st = some b ∧ h.Alike h' a b := by
  obtain ⟨path, hpath, hvw⟩ := hvw
  obtain ⟨rest, hrest, hvw, hfresh⟩ := hpath.exists_fresh hvw
  obtain ⟨b, hb, hab⟩ := hvw.exists_part? hfresh ha
  exact ⟨b, hb, _, hrest.inside hvw hfresh, hab⟩

theorem Alike.part?_eq_none (hvw : h.Alike h' v w) (ha : h.part? v st = none) :
    h'.part? w st = none := by
  obtain ⟨path, hpath, hvw⟩ := hvw
  obtain ⟨rest, _, hvw, hfresh⟩ := hpath.exists_fresh hvw
  exact hvw.part?_eq_none hfresh ha

theorem Alike.face_eq (hvw : h.Alike h' v w) : h.face v = h'.face w := by
  obtain ⟨path, hpath, hvw⟩ := hvw
  obtain ⟨rest, _, hvw, hfresh⟩ := hpath.exists_fresh hvw
  exact hvw.face_eq hfresh

theorem Alike.map_face_follow? (hvw : h.Alike h' v w) (p : List Step) :
    (h.follow? v p).map h.face = (h'.follow? w p).map h'.face := by
  induction p generalizing v w with
  | nil => exact congrArg some hvw.face_eq
  | cons st p ih =>
    rw [follow?_cons, follow?_cons]
    cases ha : h.part? v st with
    | none => rw [hvw.part?_eq_none ha]; rfl
    | some a =>
      obtain ⟨b, hb, hab⟩ := hvw.exists_part? ha
      rw [hb]
      exact ih hab

theorem Alike.follow?_eq_atom_iff (hvw : h.Alike h' v w) (p : List Step) (a : Atom) :
    h'.follow? w p = some (.atom a) ↔ h.follow? v p = some (.atom a) := by
  have hface (h : Heap) (u : Value) : h.face u = .atom a ↔ u = .atom a := by
    cases u <;> simp [face]
  have hpath (h : Heap) (v : Value) :
      h.follow? v p = some (.atom a) ↔ (h.follow? v p).map h.face = some (.atom a) := by
    simp [Option.map_eq_some_iff, hface]
  rw [hpath, hpath h, hvw.map_face_follow?]

/-! ### Coming back to an array -/

theorem prefix_unique (hnodup : (h.met v p).Nodup) {q q' : List Step} (hq : q <+: p)
    (hq' : q' <+: p) (hqr : h.follow? v q = some (.array r))
    (hqr' : h.follow? v q' = some (.array r)) : q = q' := by
  -- of two prefixes one continues the other, and a longer one would meet the array again
  have hlonger (a b : List Step) (ha : a <+: b) (hb : b <+: p)
      (har : h.follow? v a = some (.array r)) (hbr : h.follow? v b = some (.array r)) : a = b := by
    obtain ⟨t, rfl⟩ := ha
    obtain ⟨rest, rfl⟩ := hb
    cases t with
    | nil => simp
    | cons st t =>
      rw [List.append_assoc] at hnodup
      have htail := (met_append har).sublist.nodup hnodup
      rw [follow?_append, har] at hbr
      obtain ⟨u, hu, hback⟩ := Option.bind_eq_some_iff.1 (Option.bind_some _ _ ▸ hbr)
      rw [List.cons_append, met_cons hu] at htail
      have hmem : r ∈ h.met u (t ++ rest) := (met_append hback).subset (head_mem_met h r rest)
      exact absurd hmem (List.nodup_cons.1 htail).1
  rcases List.prefix_or_prefix_of_prefix hq hq' with hqq | hqq
  · exact hlonger q q' hqq hq' hqr hqr'
  · exact (hlonger q' q hqq hq hqr' hqr).symm

/-- A step back into an array leads on the other side to the array that is paired with it. -/
theorem SameTree.follow?_back (hpath : Matched h h' path) (hvw : h.SameTree h' path v w)
    (hnodup : (h.met v p).Nodup) (hfree : ∀ r ∈ h.met v p, r ∉ path.map Prod.fst)
    (hr : h.follow? v (p ++ [st]) = some (.array r))
    (hback : r ∈ h.met v p ∨ r ∈ path.map Prod.fst) :
    ∃ s, h'.follow? w (p ++ [st]) = some (.array s) ∧
      ((r, s) ∈ path ∨
        ∃ q, q <+: p ∧ h.follow? v q = some (.array r) ∧ h'.follow? w q = some (.array s)) := by
  induction p generalizing v w path with
  | nil =>
    have hfresh := hvw.fresh fun r hr => hfree r (by simpa using hr)
    obtain ⟨a, ha, hr⟩ := Option.bind_eq_some_iff.1 hr
    cases hr
    obtain ⟨b, hb, hab⟩ := hvw.exists_part? hfresh ha
    have hmem : r ∈ (inside v w path).map Prod.fst := by
      rw [hfresh.map_fst_inside, List.mem_append]
      exact hback
    obtain ⟨s, rfl, hrs⟩ := hab.mem_of_mem hmem
    refine ⟨s, by simp [hb], ?_⟩
    rcases mem_inside hrs with hrs | ⟨rfl, rfl⟩
    · exact .inl hrs
    · exact .inr ⟨[], List.nil_prefix, rfl, rfl⟩
  | cons st' p ih =>
    obtain ⟨a, ha, hr⟩ := Option.bind_eq_some_iff.1 hr
    rw [met_cons ha] at hnodup hfree hback
    obtain ⟨_, hnodup, hdisjoint⟩ := List.nodup_append.1 hnodup
    have hfresh := hvw.fresh fun r hr => hfree r (List.mem_append_left _ (by simpa using hr))
    obtain ⟨b, hb, hab⟩ := hvw.exists_part? hfresh ha
    have hfree' : ∀ r ∈ h.met a p, r ∉ (inside v w path).map Prod.fst := by
      intro r hr hmem
      rw [hfresh.map_fst_inside, List.mem_append] at hmem
      rcases hmem with hmem | hmem
      · exact hdisjoint r hmem r hr rfl
      · exact hfree r (List.mem_append_right _ hr) hmem
    have hback' : r ∈ h.met a p ∨ r ∈ (inside v w path).map Prod.fst := by
      rw [hfresh.map_fst_inside, List.mem_append]
      rw [List.mem_append] at hback
      tauto
    obtain ⟨s, hs, hrs⟩ := ih (hpath.inside hvw hfresh) hab hnodup hfree' hr hback'
    refine ⟨s, by simpa [hb] using hs, ?_⟩
    rcases hrs with hrs | ⟨q, hq, hqr, hqs⟩
    · rcases mem_inside hrs with hrs | ⟨rfl, rfl⟩
      · exact .inl hrs
      · exact .inr ⟨[], List.nil_prefix, rfl, rfl⟩
    · refine .inr ⟨st' :: q, (List.prefix_cons_inj st').2 hq, ?_, ?_⟩
      · simpa [ha] using hqr
      · simpa [hb] using hqs

/-- Where a path that meets no array twice steps back into an array it has met, the other value
steps back into the array it has met at the same point. -/
theorem follow?_back_of_tree_eq (hvw : h.tree v = h'.tree w) (hnodup : (h.met v p).Nodup)
    (hq : q <+: p) (hqr : h.follow? v q = some (.array r))
    (hr : h.follow? v (p ++ [st]) = some (.array r)) :
    h'.follow? w (p ++ [st]) = h'.follow? w q := by
  have hmem : r ∈ h.met v p := by
    obtain ⟨t, rfl⟩ := hq
    exact (met_append hqr).subset (head_mem_met h r t)
  obtain ⟨s, hs, hrs⟩ := SameTree.follow?_back .nil hvw hnodup (by simp) hr (.inl hmem)
  rcases hrs with hrs | ⟨q', hq', hqr', hqs⟩
  · simp at hrs
  · rw [prefix_unique hnodup hq hq' hqr hqr', hqs, hs]

end Heap

end ScriptHost
