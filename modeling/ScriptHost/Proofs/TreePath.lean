import ScriptHost.Proofs.Path
/-!
# Paths into trees

The tree of a value has its arrays written out along the paths that meet no
array twice. So the arrays of the tree are found at exactly those paths, and
where a path comes back to an array it is inside of, the tree has the distance
to that array.
-/

namespace ScriptHost

namespace Tree

def part? : Tree → Step → Option Tree
  | array ts, .item i => ts[i]?
  | map m, .key k => m.get? k
  | error p, .payload => some p
  | _, _ => none

def follow? : Tree → List Step → Option Tree
  | t, [] => some t
  | t, s :: p => (t.part? s).bind fun u => u.follow? p

variable {t u : Tree} {s : Step} {p q : List Step}

@[simp] theorem follow?_nil : t.follow? [] = some t := rfl

@[simp] theorem follow?_cons :
    t.follow? (s :: p) = (t.part? s).bind fun u => u.follow? p := rfl

@[simp] theorem part?_ancestor (up : Nat) : (ancestor up).part? s = none := by
  cases s <;> rfl

@[simp] theorem part?_atom (a : Atom) : (atom a).part? s = none := by
  cases s <;> rfl

/-! ### The paths to arrays -/

/-- Paths that begin with the steps they are listed under. -/
def branches (l : List (Step × List (List Step))) : List (List Step) :=
  l.flatMap fun e => e.2.map (e.1 :: ·)

/-- Collects paths to arrays. The path to an array stands before the paths that go on from it. -/
def pathAlgebra : Algebra (List (List Step)) where
  atom _ := []
  array parts := [] :: branches (parts.mapIdx fun i paths => (.item i, paths))
  ancestor _ := []
  map m := branches (m.entries.map fun e => (.key e.1, e.2))
  error p := branches [(.payload, p)]

/-- The paths to the arrays of a tree, in the order in which the tree is read. -/
def arrayPaths (t : Tree) : List (List Step) :=
  t.fold pathAlgebra

@[simp] theorem not_mem_branches_nil {l : List (Step × List (List Step))} :
    [] ∉ branches l := by
  simp [branches]

@[simp] theorem mem_branches_cons {l : List (Step × List (List Step))} :
    s :: p ∈ branches l ↔ ∃ paths, (s, paths) ∈ l ∧ p ∈ paths := by
  simp [branches]

theorem arrayPaths_atom (a : Atom) : (atom a).arrayPaths = [] := by
  simp [arrayPaths, pathAlgebra]

theorem arrayPaths_ancestor (up : Nat) : (ancestor up).arrayPaths = [] := by
  simp [arrayPaths, pathAlgebra]

theorem arrayPaths_array {ts : List Tree} :
    (array ts).arrayPaths = [] :: branches (ts.mapIdx fun i t => (.item i, t.arrayPaths)) := by
  simp only [arrayPaths, fold_array, pathAlgebra, List.mapIdx_eq_zipIdx_map, List.zipIdx_map,
    List.map_map]
  rfl

theorem arrayPaths_map {m : Dict Tree} :
    (map m).arrayPaths = branches (m.entries.map fun e => (.key e.1, e.2.arrayPaths)) := by
  simp only [arrayPaths, fold_map, pathAlgebra, Dict.entries_map, List.map_map]
  rfl

theorem arrayPaths_error : (error t).arrayPaths = branches [(.payload, t.arrayPaths)] := by
  simp [arrayPaths, pathAlgebra]

theorem mem_arrayPaths : p ∈ t.arrayPaths ↔ ∃ ts, t.follow? p = some (array ts) := by
  induction t generalizing p with
  | atom a => cases p <;> simp [arrayPaths_atom]
  | ancestor up => cases p <;> simp [arrayPaths_ancestor]
  | array ts ih =>
    rw [arrayPaths_array]
    cases p with
    | nil => simp
    | cons s p =>
      simp only [List.mem_cons, reduceCtorEq, false_or, mem_branches_cons, List.mem_mapIdx,
        Prod.mk.injEq, follow?_cons, Option.bind_eq_some_iff]
      constructor
      · rintro ⟨_, ⟨i, hi, rfl, rfl⟩, hp⟩
        obtain ⟨us, hus⟩ := (ih ts[i] (List.getElem_mem hi)).1 hp
        exact ⟨us, ts[i], List.getElem?_eq_getElem hi, hus⟩
      · rintro ⟨us, u, hu, hus⟩
        cases s with
        | item i =>
          obtain ⟨hi, rfl⟩ := List.getElem?_eq_some_iff.1 hu
          exact ⟨_, ⟨i, hi, rfl, rfl⟩, (ih ts[i] (List.getElem_mem hi)).2 ⟨us, hus⟩⟩
        | key k => cases hu
        | payload => cases hu
  | map m ih =>
    rw [arrayPaths_map]
    cases p with
    | nil => simp
    | cons s p =>
      simp only [mem_branches_cons, List.mem_map, Prod.mk.injEq, follow?_cons,
        Option.bind_eq_some_iff]
      constructor
      · rintro ⟨_, ⟨e, he, rfl, rfl⟩, hp⟩
        obtain ⟨us, hus⟩ := (ih e he).1 hp
        exact ⟨us, e.2, Dict.get?_eq_some_iff.2 he, hus⟩
      · rintro ⟨us, u, hu, hus⟩
        cases s with
        | key k =>
          have he : (k, u) ∈ m.entries := Dict.get?_eq_some_iff.1 hu
          exact ⟨_, ⟨(k, u), he, rfl, rfl⟩, (ih (k, u) he).2 ⟨us, hus⟩⟩
        | item i => cases hu
        | payload => cases hu
  | error u ih =>
    rw [arrayPaths_error]
    cases p with
    | nil => simp
    | cons s p =>
      cases s <;> simp [part?, ih]

end Tree

namespace Heap

variable {h : Heap} {v w : Value} {s : Step} {p q : List Step} {path : List Ref} {r : Ref}

/-! ### The arrays met by a path -/

@[simp] theorem met_nil : h.met v [] = v.array?.toList := by
  rw [met]

theorem met_cons (hw : h.part? v s = some w) :
    h.met v (s :: p) = v.array?.toList ++ h.met w p := by
  rw [met, hw]

theorem met_append (hw : h.follow? v p = some w) : h.met w q <:+ h.met v (p ++ q) := by
  induction p generalizing v with
  | nil =>
    cases hw
    exact List.suffix_rfl
  | cons s p ih =>
    obtain ⟨u, hu, hw⟩ := Option.bind_eq_some_iff.1 hw
    rw [List.cons_append, met_cons hu]
    exact (ih hw).trans (List.suffix_append _ _)

theorem exists_of_mem_met (hr : r ∈ h.met v p) :
    ∃ q q', p = q ++ q' ∧ h.follow? v q = some (.array r) := by
  induction p generalizing v with
  | nil =>
    cases v <;> simp [Value.array?] at hr
    exact ⟨[], [], rfl, by rw [hr]; rfl⟩
  | cons s p ih =>
    rw [met] at hr
    rcases List.mem_append.1 hr with hr | hr
    · cases v <;> simp [Value.array?] at hr
      exact ⟨[], s :: p, rfl, by rw [hr]; rfl⟩
    · cases hw : h.part? v s with
      | none => simp [hw] at hr
      | some w =>
        simp only [hw] at hr
        obtain ⟨q, q', rfl, hq⟩ := ih hr
        exact ⟨s :: q, q', rfl, by simpa [hw] using hq⟩

/-- Whatever is reached is reached along a path that meets no array twice. -/
theorem Reaches.exists_nodup (hvw : h.Reaches v w) :
    ∃ p, h.follow? v p = some w ∧ (h.met v p).Nodup := by
  obtain ⟨p, hp⟩ := hvw
  induction p generalizing v with
  | nil =>
    cases v <;> exact ⟨[], hp, by simp [Value.array?]⟩
  | cons s p ih =>
    obtain ⟨u, hu, hp⟩ := Option.bind_eq_some_iff.1 hp
    obtain ⟨p, hp, hnodup⟩ := ih hp
    by_cases hv : ∃ r, v = .array r ∧ r ∈ h.met u p
    · -- the path comes back to its start, so its last part is a path from the start
      obtain ⟨r, rfl, hr⟩ := hv
      obtain ⟨q, q', rfl, hq⟩ := exists_of_mem_met hr
      rw [follow?_append, hq] at hp
      exact ⟨q', hp, (met_append hq).sublist.nodup hnodup⟩
    · refine ⟨s :: p, by simpa [hu] using hp, ?_⟩
      rw [met_cons hu]
      cases v with
      | array r =>
        refine List.nodup_cons.2 ⟨?_, hnodup⟩
        intro hr
        exact hv ⟨r, rfl, hr⟩
      | atom a => exact hnodup
      | map m => exact hnodup
      | error p => exact hnodup

/-! ### Steps in the tree of a value -/

theorem part?_unfold (hv : ∀ r ∈ v.array?, r ∉ path) :
    (h.unfold path v).part? s = (h.part? v s).map (h.unfold (v.array?.toList ++ path)) := by
  cases v with
  | atom a => cases s <;> simp [part?]
  | array r =>
    rw [unfold_array_of_not_mem (hv r rfl)]
    cases s <;> simp [part?, Tree.part?, get?, Value.array?]
  | map m => cases s <;> simp [part?, Tree.part?, Value.array?]
  | error p => cases s <;> simp [part?, Tree.part?, Value.array?]

theorem exists_unfold_array_of_mem (hr : r ∈ path) :
    ∃ up, path.idxOf? r = some up ∧ h.unfold path (.array r) = .ancestor up := by
  obtain ⟨up, hup⟩ := Option.isSome_iff_exists.1 (List.isSome_idxOf?.2 hr)
  exact ⟨up, hup, unfold_array_of_idxOf? hup⟩

theorem head_mem_met (h : Heap) (r : Ref) (p : List Step) : r ∈ h.met (.array r) p := by
  cases p <;> simp [met, Value.array?]

/-- The arrays written out in the tree are at the paths to arrays that meet no array twice. -/
theorem exists_follow?_unfold_eq_array :
    (∃ ts, (h.unfold path v).follow? p = some (.array ts)) ↔
      (∃ r, h.follow? v p = some (.array r)) ∧ (h.met v p).Nodup ∧ ∀ r ∈ h.met v p, r ∉ path := by
  induction p generalizing v path with
  | nil =>
    cases v with
    | array r =>
      by_cases hr : r ∈ path
      · obtain ⟨up, _, hup⟩ := exists_unfold_array_of_mem (h := h) hr
        simp [hup, hr, Value.array?]
      · simp [unfold_array_of_not_mem hr, hr, Value.array?]
    | _ => simp
  | cons s p ih =>
    by_cases hv : ∃ r, v = .array r ∧ r ∈ path
    · obtain ⟨r, rfl, hr⟩ := hv
      obtain ⟨up, _, hup⟩ := exists_unfold_array_of_mem (h := h) hr
      refine iff_of_false (by simp [hup]) ?_
      exact fun hall => hall.2.2 r (head_mem_met h r _) hr
    · have hfree : ∀ r ∈ v.array?, r ∉ path := by
        intro r hr hmem
        cases v <;> simp [Value.array?] at hr
        exact hv ⟨r, by rw [hr], hmem⟩
      cases hw : h.part? v s with
      | none => simp [part?_unfold hfree, hw]
      | some w =>
        simp only [Tree.follow?_cons, part?_unfold hfree, hw, Option.map_some, Option.bind_some,
          follow?_cons, ih, met_cons hw, List.nodup_append]
        cases v <;> simp [Value.array?] at hfree ⊢
        grind

/-- A path that ends in an array and meets no array twice. -/
def ArrayPath (h : Heap) (v : Value) (p : List Step) : Prop :=
  (∃ r, h.follow? v p = some (.array r)) ∧ (h.met v p).Nodup

theorem mem_arrayPaths_tree : p ∈ (h.tree v).arrayPaths ↔ h.ArrayPath v p := by
  rw [Tree.mem_arrayPaths, tree, exists_follow?_unfold_eq_array, ArrayPath]
  simp

end Heap

end ScriptHost
