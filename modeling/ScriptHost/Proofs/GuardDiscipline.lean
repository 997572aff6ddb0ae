import ScriptHost.Debug
import ScriptHost.Display
import ScriptHost.Proofs.Copying
import ScriptHost.Proofs.GuardedWalk
import ScriptHost.Proofs.SerializationFailure
import ScriptHost.Proofs.TreePath
/-!
# Guards are kept in order

A walk ends on every heap, with the result that its operation has, and leaves
its list as it was. At each moment the list has, beside what was on it before,
only arrays that the value reaches, or pairs of arrays that two values reach
along one path, and none of them twice. So arrays are entered no more deeply
than there are such arrays or pairs.
-/

namespace ScriptHost

namespace Heap

open Walk MessagePack

/-- The arrays that the value reaches. -/
def arraysOf (h : Heap) (v : Value) : Set Ref :=
  {r | h.Reaches v (.array r)}

/-- The pairs of arrays that the values reach along one path. -/
def arrayPairsOf (h : Heap) (v w : Value) : Set (Ref × Ref) :=
  {p | ∃ path, h.follow? v path = some (.array p.1) ∧ h.follow? w path = some (.array p.2)}

variable {α ι : Type} {h old : Heap} {v w : Value} {r s : Ref} {outer : List Ref}
  {pairs : List (Ref × Ref)} {K : Set Ref} {L : Set (Ref × Ref)}

theorem arraysOf_subset (hvw : h.Reaches v w) : h.arraysOf w ⊆ h.arraysOf v :=
  fun _ hr => hvw.trans hr

theorem mem_arraysOf_array (h : Heap) (r : Ref) : r ∈ h.arraysOf (.array r) :=
  .refl h _

/-! ### Showing -/

theorem ends_walkFoldItems {f : Tree.Algebra α} {g : Value → α} {vs : List Value}
    (hvs : ∀ v ∈ vs, Ends id K (h.walkFold f v) outer (g v)) :
    Ends id K (h.walkFoldItems f vs) outer (vs.map g) := by
  induction vs with
  | nil =>
    rw [walkFoldItems]
    exact .pure _ outer
  | cons v vs ih =>
    have hrest := ih fun w hw => hvs w (List.mem_cons_of_mem v hw)
    rw [walkFoldItems]
    exact (hvs v List.mem_cons_self).bind (hrest.map _)

theorem ends_walkFoldRow {f : Tree.Algebra α} {g : Value → α} {keys : List String}
    {row : Dict.Row Value keys}
    (hrow : ∀ e ∈ row.entries, Ends id K (h.walkFold f e.2) outer (g e.2)) :
    Ends id K (h.walkFoldRow f row) outer (row.map g) := by
  induction row with
  | nil =>
    rw [walkFoldRow]
    exact .pure _ outer
  | cons k v rest ih =>
    have hrest := ih fun e he => hrow e (List.mem_cons_of_mem _ he)
    rw [walkFoldRow]
    exact (hrow (k, v) List.mem_cons_self).bind (hrest.map _)

theorem ends_walkFold (h : Heap) (f : Tree.Algebra α) (outer : List Ref) (v : Value) :
    Ends id (h.arraysOf v) (h.walkFold f v) outer ((h.unfold outer v).fold f) := by
  induction outer, v using traversal_induct h with
  | atom outer a =>
    rw [walkFold, unfold_atom, Tree.fold_atom]
    exact .pure _ outer
  | ancestor outer r up hr =>
    rw [walkFold, unfold_array_of_idxOf? hr, Tree.fold_ancestor]
    apply Ends.inside_bind
    rw [hr]
    exact .pure _ outer
  | array outer r hr ih =>
    have hnone : outer.idxOf? r = none := by simpa using hr
    rw [walkFold, unfold_array_of_not_mem hr, Tree.fold_array, List.map_map]
    apply Ends.inside_bind
    rw [hnone]
    have hitems : Ends id (h.arraysOf (.array r)) (h.walkFoldItems f (h.items r)) (r :: outer)
        ((h.items r).map (Tree.fold f ∘ h.unfold (r :: outer))) :=
      ends_walkFoldItems fun v hv => (ih v hv).mono (arraysOf_subset (.of_mem_items hv))
    exact hitems.enter (h.mem_arraysOf_array r) (by simpa using hr) f.array
  | map outer m ih =>
    have hrow : Ends id (h.arraysOf (.map m)) (h.walkFoldRow f m.row) outer
        (m.row.map (Tree.fold f ∘ h.unfold outer)) :=
      ends_walkFoldRow fun e he => (ih e he).mono (arraysOf_subset (.of_mem_entries he))
    rw [walkFold, unfold_map, Tree.fold_map, Dict.map_map]
    exact hrow.map _
  | error outer p ih =>
    rw [walkFold, unfold_error, Tree.fold_error]
    exact (ih.mono (arraysOf_subset (.payload p))).map f.error

/-! ### Writing -/

section Write

variable {ε σ : Type} {put : Piece → σ → Except ε σ}

theorem ends_walkWriteParts {g : Value → List Piece} {parts : List (Piece ⊕ Value)}
    (hparts : ∀ v, .inr v ∈ parts → ∀ s,
      Ends id K (h.walkWrite put v s) outer (Piece.deliver put (g v) s)) (s : σ) :
    Ends id K (h.walkWriteParts put parts s) outer
      (Piece.deliver put (Piece.spread g parts) s) := by
  induction parts generalizing s with
  | nil =>
    rw [walkWriteParts]
    exact .pure _ outer
  | cons part parts ih =>
    have hrest := ih fun v hv => hparts v (List.mem_cons_of_mem _ hv)
    cases part with
    | inl p =>
      rw [walkWriteParts, Piece.spread_cons_inl, Piece.deliver_cons]
      cases put p s with
      | error e => exact .pure _ outer
      | ok s => exact hrest s
    | inr v =>
      rw [walkWriteParts, Piece.spread_cons_inr, Piece.deliver_append]
      apply (hparts v List.mem_cons_self s).bind
      cases Piece.deliver put (g v) s with
      | error e => exact .pure _ outer
      | ok s => exact hrest s

theorem ends_walkWriteItems_ancestor (hr : r ∈ outer) (s : σ) :
    Ends id K (h.walkWriteItems put r s) outer (put .ancestor s) := by
  rw [walkWriteItems]
  apply Ends.inside_bind
  rw [if_pos hr]
  exact .pure _ outer

/-- The array is left whatever has become of its elements. -/
theorem ends_walkWriteItems (hr : r ∉ outer) (hmem : r ∈ K) {s : σ} {result : Except ε σ}
    (hitems : Ends id K (h.walkWriteParts put (Piece.itemParts (h.items r)) s) (r :: outer)
      result) :
    Ends id K (h.walkWriteItems put r s) outer result := by
  rw [walkWriteItems]
  apply Ends.inside_bind
  rw [if_neg hr]
  exact hitems.enter hmem (by simpa using hr) id

theorem ends_walkWrite_array {ps : List Piece} (hitems : ∀ s,
      Ends id K (h.walkWriteItems put r s) outer (Piece.deliver put ps s)) (s : σ) :
    Ends id K (h.walkWrite put (.array r) s) outer
      (Piece.deliver put (.beginArray :: ps ++ [.endArray]) s) := by
  rw [walkWrite, List.cons_append, Piece.deliver_cons]
  cases put .beginArray s with
  | error e => exact .pure _ outer
  | ok s =>
    change Ends id K _ outer (Piece.deliver put (ps ++ [.endArray]) s)
    rw [Piece.deliver_append]
    apply (hitems s).bind
    cases Piece.deliver put ps s with
    | error e => exact .pure _ outer
    | ok s =>
      rw [Except.bind, Piece.deliver_singleton]
      exact .pure _ outer

theorem ends_walkWrite (h : Heap) (put : Piece → σ → Except ε σ) (outer : List Ref) (v : Value)
    (s : σ) : Ends id (h.arraysOf v) (h.walkWrite put v s) outer
      (Piece.deliver put (h.unfold outer v).pieces s) := by
  induction outer, v using traversal_induct h generalizing s with
  | atom outer a =>
    rw [walkWrite, unfold_atom, Tree.pieces_atom, Piece.deliver_singleton]
    exact .pure _ outer
  | ancestor outer r up hr =>
    have hmem : r ∈ outer := List.isSome_idxOf?.1 (by rw [hr]; rfl)
    have hitems (s : σ) : Ends id (h.arraysOf (.array r)) (h.walkWriteItems put r s) outer
        (Piece.deliver put [.ancestor] s) := by
      rw [Piece.deliver_singleton]
      exact ends_walkWriteItems_ancestor hmem s
    rw [unfold_array_of_idxOf? hr, Tree.pieces_ancestor]
    exact ends_walkWrite_array hitems s
  | array outer r hr ih =>
    rw [unfold_array_of_not_mem hr, Tree.pieces_array, Piece.itemParts_map, Piece.spread_map]
    refine ends_walkWrite_array (fun s => ?_) s
    refine ends_walkWriteItems hr (h.mem_arraysOf_array r) (ends_walkWriteParts ?_ s)
    intro v hv s
    have hv' := Piece.mem_of_mem_itemParts hv
    exact (ih v hv' s).mono (arraysOf_subset (.of_mem_items hv'))
  | map outer m ih =>
    rw [walkWrite, unfold_map, Tree.pieces_map, Dict.entries_map, Piece.entryParts_map,
      Piece.spread_map]
    refine ends_walkWriteParts ?_ s
    intro v hv s
    obtain ⟨e, he, rfl⟩ := Piece.exists_mem_of_mem_entryParts hv
    exact (ih e he s).mono (arraysOf_subset (.of_mem_entries he))
  | error outer p ih =>
    rw [walkWrite, unfold_error, Tree.pieces_error, Piece.payloadParts_map, Piece.spread_map]
    refine ends_walkWriteParts ?_ s
    intro v hv s
    obtain rfl := Piece.eq_of_mem_payloadParts hv
    exact (ih s).mono (arraysOf_subset (.payload v))

end Write

theorem ends_walkSerialize (h : Heap) (outer : List Ref) (v : Value) :
    Ends id (h.arraysOf v) (h.walkSerialize v) outer (written (encode? (h.unfold outer v))) := by
  rw [walkSerialize, ← Piece.deliver_writeBytes]
  exact ends_walkWrite h Piece.writeBytes outer v []

/-! ### Copying -/

theorem ends_walkCopyItems {vs : List Value}
    (hvs : ∀ v ∈ vs, ∀ h, Ends Prod.fst K (old.walkCopy v h) pairs (old.copyUnder pairs v h))
    (h : Heap) :
    Ends Prod.fst K (old.walkCopyItems vs h) pairs
      (inTurn (vs.map (old.copyUnder pairs)) h) := by
  induction vs generalizing h with
  | nil =>
    rw [walkCopyItems]
    exact .pure _ pairs
  | cons v vs ih =>
    have hrest := ih fun w hw => hvs w (List.mem_cons_of_mem v hw)
    rw [walkCopyItems]
    exact (hvs v List.mem_cons_self h).bind ((hrest _).map _)

theorem ends_walkCopyRow {keys : List String} {row : Dict.Row Value keys}
    (hrow : ∀ e ∈ row.entries, ∀ h,
      Ends Prod.fst K (old.walkCopy e.2 h) pairs (old.copyUnder pairs e.2 h)) (h : Heap) :
    Ends Prod.fst K (old.walkCopyRow row h) pairs
      (rowInTurn (row.map (old.copyUnder pairs)) h) := by
  induction row generalizing h with
  | nil =>
    rw [walkCopyRow]
    exact .pure _ pairs
  | cons k v rest ih =>
    have hrest := ih fun e he => hrow e (List.mem_cons_of_mem _ he)
    rw [walkCopyRow]
    exact (hrow (k, v) List.mem_cons_self h).bind ((hrest _).map _)

theorem ends_walkCopy (old : Heap) (pairs : List (Ref × Ref)) (v : Value) (h : Heap) :
    Ends Prod.fst (old.arraysOf v) (old.walkCopy v h) pairs (old.copyUnder pairs v h) := by
  generalize hpath : pairs.map Prod.fst = path
  induction path, v using traversal_induct old generalizing pairs h with
  | atom path a =>
    rw [walkCopy, copyUnder_atom]
    exact .pure _ pairs
  | ancestor path r up hr =>
    obtain ⟨s, hs, -⟩ := lookup_of_idxOf? (hpath ▸ hr)
    rw [walkCopy, copyUnder_array_of_lookup hs]
    apply Ends.inside_bind
    rw [hs]
    exact .pure _ pairs
  | array path r hr ih =>
    subst hpath
    have hnone : pairs.lookup r = none := lookup_eq_none_of_not_mem hr
    obtain ⟨s, h₁, halloc⟩ : ∃ s h₁, h.alloc [] = (s, h₁) := ⟨_, _, rfl⟩
    have hitems : Ends Prod.fst (old.arraysOf (.array r)) (old.walkCopyItems (old.items r) h₁)
        ((r, s) :: pairs) (inTurn ((old.items r).map (old.copyUnder ((r, s) :: pairs))) h₁) :=
      ends_walkCopyItems (fun v hv h =>
        (ih v hv ((r, s) :: pairs) h rfl).mono (arraysOf_subset (.of_mem_items hv))) h₁
    rw [walkCopy, copyUnder_array_of_alloc hnone halloc rfl]
    apply Ends.inside_bind
    rw [hnone, halloc]
    exact hitems.enter (old.mem_arraysOf_array r) hr _
  | map path m ih =>
    have hrow : Ends Prod.fst (old.arraysOf (.map m)) (old.walkCopyRow m.row h) pairs
        (rowInTurn (m.row.map (old.copyUnder pairs)) h) :=
      ends_walkCopyRow (fun e he h =>
        (ih e he pairs h hpath).mono (arraysOf_subset (.of_mem_entries he))) h
    rw [walkCopy, copyUnder_map]
    exact hrow.map _
  | error path p ih =>
    rw [walkCopy, copyUnder_error]
    exact ((ih pairs h hpath).mono (arraysOf_subset (.payload p))).map _

/-! ### Comparing -/

theorem arrayPairsOf_subset (st : Step) {a b : Value} (ha : h.part? v st = some a)
    (hb : h.part? w st = some b) : h.arrayPairsOf a b ⊆ h.arrayPairsOf v w := by
  rintro p ⟨path, hp₁, hp₂⟩
  exact ⟨st :: path, by rw [follow?_cons, ha]; exact hp₁, by rw [follow?_cons, hb]; exact hp₂⟩

theorem mem_arrayPairsOf_array (h : Heap) (r s : Ref) :
    (r, s) ∈ h.arrayPairsOf (.array r) (.array s) :=
  ⟨[], rfl, rfl⟩

theorem exists_part?_of_mem_zip {p : Value × Value} (hp : p ∈ (h.items r).zip (h.items s)) :
    ∃ i, h.part? (.array r) (.item i) = some p.1 ∧ h.part? (.array s) (.item i) = some p.2 := by
  obtain ⟨i, hi⟩ := List.mem_iff_getElem?.1 hp
  obtain ⟨hi₁, hi₂⟩ := List.getElem?_zip_eq_some.1 hi
  exact ⟨i, part?_array_eq_some.2 ⟨i, rfl, hi₁⟩, part?_array_eq_some.2 ⟨i, rfl, hi₂⟩⟩

/-- Dictionaries of one size with a value in the second for each key of the first have the same
keys. -/
theorem equalsUnder_map_eq_lookup (m n : Dict Value) :
    h.equalsUnder pairs (.map m) (.map n) = (m.size == n.size &&
      m.entries.all fun e => (n.get? e.1).any (h.equalsUnder pairs e.2)) := by
  rw [equalsUnder_map, Bool.eq_iff_iff]
  simp only [Bool.and_eq_true, beq_iff_eq, List.all_eq_true, Option.any_eq_true]
  constructor
  · rintro ⟨hkeys, hvalues⟩
    refine ⟨congrArg List.length hkeys, ?_⟩
    intro e he
    have hm : m.get? e.1 = some e.2 := Dict.get?_eq_some_iff.2 he
    have hkey : e.1 ∈ n.keys := hkeys ▸ Dict.mem_keys_iff.2 ⟨e.2, hm⟩
    obtain ⟨w, hw⟩ := Dict.mem_keys_iff.1 hkey
    exact ⟨w, hw, hvalues (e.2, w) ((Dict.mem_zip_values_iff hkeys).2 ⟨e.1, hm, hw⟩)⟩
  · rintro ⟨hsize, hfound⟩
    have hsub : m.keys ⊆ n.keys := by
      intro k hk
      obtain ⟨v, hv⟩ := Dict.mem_keys_iff.1 hk
      obtain ⟨w, hw, -⟩ := hfound (k, v) (Dict.get?_eq_some_iff.1 hv)
      exact Dict.mem_keys_iff.2 ⟨w, hw⟩
    have hperm := (m.nodup_keys.subperm hsub).perm_of_length_le (Nat.le_of_eq hsize.symm)
    have hkeys : m.keys = n.keys := Dict.keys_eq_iff.2 fun k => hperm.mem_iff
    refine ⟨hkeys, ?_⟩
    rintro ⟨a, b⟩ hab
    obtain ⟨k, ha, hb⟩ := (Dict.mem_zip_values_iff hkeys).1 hab
    obtain ⟨w, hw, hequal⟩ := hfound (k, a) (Dict.get?_eq_some_iff.1 ha)
    cases hb.symm.trans hw
    exact hequal

theorem ends_walkEqualsItems {l : List (Value × Value)}
    (hl : ∀ p ∈ l, Ends id L (h.walkEquals p.1 p.2) pairs (h.equalsUnder pairs p.1 p.2)) :
    Ends id L (h.walkEqualsItems l) pairs (l.all fun p => h.equalsUnder pairs p.1 p.2) := by
  induction l with
  | nil =>
    rw [walkEqualsItems]
    exact .pure _ pairs
  | cons p l ih =>
    obtain ⟨v, w⟩ := p
    have hrest := ih fun q hq => hl q (List.mem_cons_of_mem _ hq)
    rw [walkEqualsItems, List.all_cons]
    apply (hl (v, w) List.mem_cons_self).bind
    cases h.equalsUnder pairs v w with
    | false => exact .pure _ pairs
    | true => exact hrest

theorem ends_walkEqualsEntries {n : Dict Value} {es : List (String × Value)}
    (hes : ∀ e ∈ es, ∀ w, n.get? e.1 = some w →
      Ends id L (h.walkEquals e.2 w) pairs (h.equalsUnder pairs e.2 w)) :
    Ends id L (h.walkEqualsEntries es n) pairs
      (es.all fun e => (n.get? e.1).any (h.equalsUnder pairs e.2)) := by
  induction es with
  | nil =>
    rw [walkEqualsEntries]
    exact .pure _ pairs
  | cons e es ih =>
    obtain ⟨k, v⟩ := e
    have hrest := ih fun e he => hes e (List.mem_cons_of_mem _ he)
    rw [walkEqualsEntries, List.all_cons]
    cases hw : n.get? k with
    | none => exact .pure _ pairs
    | some w =>
      apply (hes (k, v) List.mem_cons_self w hw).bind
      rw [Option.any_some]
      cases h.equalsUnder pairs v w with
      | false => exact .pure _ pairs
      | true => exact hrest

theorem ends_walkEquals_array (hitems : (r, s) ∉ pairs → ∀ p ∈ (h.items r).zip (h.items s),
      Ends id (h.arrayPairsOf p.1 p.2) (h.walkEquals p.1 p.2) ((r, s) :: pairs)
        (h.equalsUnder ((r, s) :: pairs) p.1 p.2)) :
    Ends id (h.arrayPairsOf (.array r) (.array s)) (h.walkEquals (.array r) (.array s)) pairs
      (h.equalsUnder pairs (.array r) (.array s)) := by
  rw [walkEquals, equalsUnder_array]
  by_cases hrs : r = s
  · rw [if_pos hrs, beq_iff_eq.2 hrs]
    exact .pure _ pairs
  · rw [if_neg hrs, beq_eq_false_iff_ne.2 hrs, Bool.false_or]
    apply Ends.inside_bind
    by_cases hmem : (r, s) ∈ pairs
    · rw [if_pos (List.contains_iff_mem.2 hmem), decide_eq_true hmem]
      exact .pure _ pairs
    · rw [if_neg (mt List.contains_iff_mem.1 hmem), decide_eq_false hmem, Bool.false_or]
      by_cases hlen : (h.items r).length = (h.items s).length
      · have hall := ends_walkEqualsItems (L := h.arrayPairsOf (.array r) (.array s)) fun p hp => by
          obtain ⟨i, ha, hb⟩ := exists_part?_of_mem_zip hp
          exact (hitems hmem p hp).mono (arrayPairsOf_subset _ ha hb)
        rw [if_neg fun hne => hne hlen, beq_iff_eq.2 hlen, Bool.true_and]
        exact hall.enter (h.mem_arrayPairsOf_array r s) (by simpa using hmem) id
      · rw [if_pos hlen, beq_eq_false_iff_ne.2 hlen]
        exact .pure _ pairs

theorem ends_walkEquals_map {m n : Dict Value} (hvalues : ∀ e ∈ m.entries, ∀ w,
      Ends id (h.arrayPairsOf e.2 w) (h.walkEquals e.2 w) pairs (h.equalsUnder pairs e.2 w)) :
    Ends id (h.arrayPairsOf (.map m) (.map n)) (h.walkEquals (.map m) (.map n)) pairs
      (h.equalsUnder pairs (.map m) (.map n)) := by
  rw [walkEquals, equalsUnder_map_eq_lookup]
  by_cases hsize : m.size = n.size
  · rw [if_neg fun hne => hne hsize, beq_iff_eq.2 hsize, Bool.true_and]
    apply ends_walkEqualsEntries
    intro e he w hw
    exact (hvalues e he w).mono (arrayPairsOf_subset _ (part?_map_key_of_mem he) hw)
  · rw [if_pos hsize, beq_eq_false_iff_ne.2 hsize]
    exact .pure _ pairs

theorem ends_walkEquals_mismatch (hatom : ∀ a b, v = .atom a → w = .atom b → False)
    (harray : ∀ r s, v = .array r → w = .array s → False)
    (hmap : ∀ m n, v = .map m → w = .map n → False)
    (herror : ∀ p q, v = .error p → w = .error q → False) :
    Ends id (h.arrayPairsOf v w) (h.walkEquals v w) pairs (h.equalsUnder pairs v w) := by
  rw [walkEquals, equalsUnder]
  · exact .pure _ pairs
  all_goals assumption

theorem ends_walkEquals (h : Heap) (pairs : List (Ref × Ref)) (v w : Value) :
    Ends id (h.arrayPairsOf v w) (h.walkEquals v w) pairs (h.equalsUnder pairs v w) := by
  -- Below an array fewer pairs are undecided. Elsewhere the left value gets smaller.
  induction hn : h.undecided pairs using Nat.strong_induction_on generalizing pairs v w with
  | _ n hfewer =>
  subst hn
  induction v generalizing w with
  | atom a =>
    cases w with
    | atom b =>
      rw [walkEquals, equalsUnder_atom]
      exact .pure _ pairs
    | _ => apply ends_walkEquals_mismatch <;> simp
  | array r =>
    cases w with
    | array s =>
      apply ends_walkEquals_array
      rintro hnew ⟨a, b⟩ hab
      have hab' := List.of_mem_zip hab
      have hlt := undecided_cons_lt (mem_of_mem_items hab'.1) (mem_of_mem_items hab'.2) hnew
      exact hfewer _ hlt _ a b rfl
    | _ => apply ends_walkEquals_mismatch <;> simp
  | map m ih =>
    cases w with
    | map n => exact ends_walkEquals_map ih
    | _ => apply ends_walkEquals_mismatch <;> simp
  | error p ih =>
    cases w with
    | error q =>
      rw [walkEquals, equalsUnder_error]
      exact (ih q).mono (arrayPairsOf_subset .payload rfl rfl)
    | _ => apply ends_walkEquals_mismatch <;> simp

/-! ### How far a list can grow -/

theorem finite_arraysOf (h : Heap) (v : Value) : (h.arraysOf v).Finite := by
  -- Each array is at the end of one of the finitely many paths that meet no array twice.
  let ends := (h.tree v).arrayPaths.filterMap fun p => (h.follow? v p).bind Value.array?
  apply (List.finite_toSet ends).subset
  intro r hr
  obtain ⟨p, hp, hnodup⟩ := Reaches.exists_nodup hr
  have hpath : p ∈ (h.tree v).arrayPaths := mem_arrayPaths_tree.2 ⟨⟨r, hp⟩, hnodup⟩
  exact List.mem_filterMap.2 ⟨p, hpath, by rw [hp]; rfl⟩

theorem finite_arrayPairsOf (h : Heap) (v w : Value) : (h.arrayPairsOf v w).Finite := by
  apply ((h.finite_arraysOf v).prod (h.finite_arraysOf w)).subset
  rintro p ⟨path, hp₁, hp₂⟩
  exact ⟨⟨path, hp₁⟩, ⟨path, hp₂⟩⟩

end Heap

namespace Walk

variable {ι κ α : Type} {key : κ → ι} {K : Set ι} {outer l : List κ} {x : Walk κ α} {a : α}

theorem Within.length_le (hK : K.Finite) (hl : Within key K outer l) :
    l.length ≤ outer.length + K.ncard := by
  classical
  obtain ⟨inner, rfl, hnodup, hinner⟩ := hl
  have hsub : ((inner.map key).toFinset : Set ι) ⊆ K := by
    intro i hi
    obtain ⟨k, hk, rfl⟩ := List.mem_map.1 (List.mem_toFinset.1 hi)
    exact (hinner k hk).1
  have hcard : inner.length ≤ K.ncard := by
    have hle := Set.ncard_le_ncard hsub hK
    rwa [Set.ncard_coe_finset, List.toFinset_card_of_nodup hnodup, List.length_map] at hle
  rw [List.length_append, Nat.add_comm]
  exact Nat.add_le_add_left hcard _

/-- A walk that starts inside of `outer` ends with a result and is then inside of `outer` again. At
each moment it was inside of `outer` and, beyond that, of different keys in `K` that are not in
`outer`, so of no more than there are in `K`. -/
def Orderly (key : κ → ι) (K : Set ι) (x : Walk κ α) (outer : List κ) (a : α) : Prop :=
  ∃ moments, x (start outer) = some (a, ⟨outer, moments⟩) ∧
    ∀ l ∈ moments, Within key K outer l ∧ l.length ≤ outer.length + K.ncard

theorem Ends.orderly (hx : Ends key K x outer a) (hK : K.Finite) : Orderly key K x outer a := by
  obtain ⟨moments, hrun, hmoments⟩ := hx [outer]
  refine ⟨moments ++ [outer], hrun, ?_⟩
  intro l hl
  have hwithin : Within key K outer l := by
    rcases List.mem_append.1 hl with hl | hl
    · exact hmoments l hl
    · obtain rfl := List.mem_singleton.1 hl
      exact .refl key K l
  exact ⟨hwithin, hwithin.length_le hK⟩

end Walk

namespace Heap

open Walk

/-- The walks through values are orderly, wherever they start: those that show, copy and write a
value with the arrays that it reaches, and the one that compares two values with the pairs of arrays
that they reach along one path. There are finitely many of these, and the results are those of the
operations, also if writing fails or a difference is found. The texts are written in pieces, as all
else is, and a walk is as orderly if whoever takes the pieces refuses one and nothing is written
after it. -/
theorem guards_kept_in_order (h : Heap) (v w : Value) :
    (h.arraysOf v).Finite ∧ (h.arrayPairsOf v w).Finite ∧
      (∀ outer, Orderly id (h.arraysOf v) (h.walkFold Tree.displayAlgebra v) outer
        (h.unfold outer v).display) ∧
      (∀ outer, Orderly id (h.arraysOf v) (h.walkFold Tree.debugAlgebra v) outer
        (h.unfold outer v).debug) ∧
      (∀ outer k, Orderly Prod.fst (h.arraysOf v) (h.walkCopy v k) outer
        (h.copyUnder outer v k)) ∧
      (∀ outer, ∃ result, h.serialize v outer = some (result, outer) ∧
        Orderly id (h.arraysOf v) (h.walkSerialize v) outer result) ∧
      (∀ (ε σ : Type) (put : Piece → σ → Except ε σ) (s : σ) outer,
        Orderly id (h.arraysOf v) (h.walkWrite put v s) outer
          (Piece.deliver put (h.unfold outer v).pieces s)) ∧
      (∀ (ε : Type) outer s,
        Piece.deliver (Piece.writeText Piece.display) (h.unfold outer v).pieces s =
          (.ok (s ++ (h.unfold outer v).display) : Except ε String) ∧
        Piece.deliver (Piece.writeText Piece.debug) (h.unfold outer v).pieces s =
          (.ok (s ++ (h.unfold outer v).debug) : Except ε String)) ∧
      ∀ outer, Orderly id (h.arrayPairsOf v w) (h.walkEquals v w) outer
        (h.equalsUnder outer v w) := by
  have hfinite := h.finite_arraysOf v
  refine ⟨hfinite, h.finite_arrayPairsOf v w, ?_, ?_, ?_, ?_, ?_, ?_, ?_⟩
  · intro outer
    exact (ends_walkFold h Tree.displayAlgebra outer v).orderly hfinite
  · intro outer
    exact (ends_walkFold h Tree.debugAlgebra outer v).orderly hfinite
  · intro outer k
    exact (ends_walkCopy h outer v k).orderly hfinite
  · intro outer
    exact ⟨_, ends_serialize h outer v, (ends_walkSerialize h outer v).orderly hfinite⟩
  · intro ε σ put s outer
    exact (ends_walkWrite h put outer v s).orderly hfinite
  · intro ε outer s
    exact ⟨Piece.deliver_display _ s, Piece.deliver_debug _ s⟩
  · intro outer
    exact (ends_walkEquals h outer v w).orderly (h.finite_arrayPairsOf v w)

end Heap

end ScriptHost
