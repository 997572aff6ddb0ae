import ScriptHost.Proofs.CopyShape
import ScriptHost.Proofs.EqualValues
import ScriptHost.Proofs.GuardDiscipline
/-!
# Recursion without a guard

The operations on values need their guards for cycles alone. Here they are
written down once more without any list, and without the shortcut for arrays
that share storage. On a value without a cycle the recursion ends, however
often its arrays are shared, and the operations have the same results, whatever
else is on their lists.
-/

namespace ScriptHost

namespace Heap

open Walk MessagePack

variable {α : Type}

mutual

/-- Makes of a value what the algebra makes of its tree, and enters every array. -/
def bareFold (h : Heap) (f : Tree.Algebra α) (v : Value) : Option α :=
  match v with
  | .atom a => return f.atom a
  | .array r => do
    let parts ← h |>.bareFoldItems f (h.items r)
    return f.array parts
  | .map m => do
    let row ← h |>.bareFoldRow f m.row
    return f.map ⟨m.keys, m.sorted, row⟩
  | .error p => do
    let part ← h |>.bareFold f p
    return f.error part
partial_fixpoint

def bareFoldItems (h : Heap) (f : Tree.Algebra α) (vs : List Value) : Option (List α) :=
  match vs with
  | [] => return []
  | v :: vs => do
    let part ← h |>.bareFold f v
    let parts ← h |>.bareFoldItems f vs
    return part :: parts
partial_fixpoint

def bareFoldRow (h : Heap) (f : Tree.Algebra α) {keys : List String}
    (row : Dict.Row Value keys) : Option (Dict.Row α keys) :=
  match row with
  | .nil => return .nil
  | .cons k v rest => do
    let part ← h |>.bareFold f v
    let parts ← h |>.bareFoldRow f rest
    return .cons k part parts
partial_fixpoint

end

/-- Makes the binary form of a value, and enters every array. -/
def bareSerialize (h : Heap) (v : Value) : Option (List UInt8) :=
  (h.bareFold algebra v).join

mutual

/-- Compares two values up to the first difference, and enters every pair of arrays. -/
def bareEquals (h : Heap) (v w : Value) : Option Bool :=
  match v, w with
  | .atom a, .atom b => return a.equals b
  | .array r, .array s =>
    if (h.items r).length ≠ (h.items s).length then return false
    else h |>.bareEqualsItems ((h.items r).zip (h.items s))
  | .map m, .map n =>
    if m.size ≠ n.size then return false
    else h |>.bareEqualsEntries m.entries n
  | .error p, .error q => h |>.bareEquals p q
  | _, _ => return false
partial_fixpoint

def bareEqualsItems (h : Heap) (pairs : List (Value × Value)) : Option Bool :=
  match pairs with
  | [] => return true
  | (v, w) :: pairs => do
    if ← h |>.bareEquals v w then h |>.bareEqualsItems pairs
    else return false
partial_fixpoint

/-- Compares each entry with what the dictionary has under its key. -/
def bareEqualsEntries (h : Heap) (es : List (String × Value)) (n : Dict Value) : Option Bool :=
  match es with
  | [] => return true
  | (k, v) :: es =>
    match n.get? k with
    | none => return false
    | some w => do
      if ← h |>.bareEquals v w then h |>.bareEqualsEntries es n
      else return false
partial_fixpoint

end

variable {h : Heap} {v w : Value} {r s : Ref} {path outer : List Ref} {pairs : List (Ref × Ref)}

/-! ### Values without a cycle -/

/-- Induction along a traversal of a value without a cycle, which meets no array that it is inside
of. -/
theorem outside_induct (h : Heap) {P : List Ref → Value → Prop}
    (atom : ∀ path a, P path (.atom a))
    (array : ∀ path r, r ∉ path → ¬h.Cyclic (.array r) → (∀ v ∈ h.items r, P (r :: path) v) →
      P path (.array r))
    (map : ∀ path (m : Dict Value), (∀ e ∈ m.entries, P path e.2) → P path (.map m))
    (error : ∀ path p, P path p → P path (.error p))
    (hv : ¬h.Cyclic v) (hout : h.Outside path v) : P path v := by
  induction path, v using traversal_induct h with
  | atom path a => exact atom path a
  | ancestor path r up hr =>
    have hmem : r ∈ path := List.isSome_idxOf?.1 (by rw [hr]; rfl)
    exact absurd hmem hout.not_mem
  | array path r hr ih =>
    refine array path r hr hv fun w hw => ?_
    exact ih w hw (mt (Cyclic.of_reaches (.of_mem_items hw)) hv) (hout.of_mem_items hv hw)
  | map path m ih =>
    refine map path m fun e he => ?_
    have hreach : h.Reaches (.map m) e.2 := .of_mem_entries he
    exact ih e he (mt (Cyclic.of_reaches hreach) hv) (hout.of_reaches hreach)
  | error path p ih =>
    exact error path p (ih (mt cyclic_error_iff.2 hv) (hout.of_reaches (.payload p)))

/-! ### Showing -/

theorem bareFoldItems_eq {f : Tree.Algebra α} {g : Value → α} {vs : List Value}
    (hvs : ∀ v ∈ vs, h.bareFold f v = some (g v)) : h.bareFoldItems f vs = some (vs.map g) := by
  induction vs with
  | nil => rw [bareFoldItems]; rfl
  | cons v vs ih =>
    rw [bareFoldItems, hvs v List.mem_cons_self, ih fun w hw => hvs w (List.mem_cons_of_mem v hw)]
    rfl

theorem bareFoldRow_eq {f : Tree.Algebra α} {g : Value → α} {keys : List String}
    {row : Dict.Row Value keys} (hrow : ∀ e ∈ row.entries, h.bareFold f e.2 = some (g e.2)) :
    h.bareFoldRow f row = some (row.map g) := by
  induction row with
  | nil => rw [bareFoldRow]; rfl
  | cons k v rest ih =>
    have hv : h.bareFold f v = some (g v) := hrow (k, v) List.mem_cons_self
    rw [bareFoldRow, hv, ih fun e he => hrow e (List.mem_cons_of_mem _ he)]
    rfl

theorem bareFold_eq (f : Tree.Algebra α) (hv : ¬h.Cyclic v) (hout : h.Outside path v) :
    h.bareFold f v = some ((h.unfold path v).fold f) := by
  refine outside_induct h (P := fun path v => h.bareFold f v = some ((h.unfold path v).fold f))
    ?atom ?array ?map ?error hv hout
  case atom =>
    intro path a
    rw [bareFold, unfold_atom, Tree.fold_atom]
    rfl
  case array =>
    intro path r hr _ ih
    rw [bareFold, unfold_array_of_not_mem hr, Tree.fold_array, List.map_map, bareFoldItems_eq ih]
    rfl
  case map =>
    intro path m ih
    have hrow : h.bareFoldRow f m.row = some (m.row.map (Tree.fold f ∘ h.unfold path)) :=
      bareFoldRow_eq ih
    rw [bareFold, unfold_map, Tree.fold_map, Dict.map_map, hrow]
    rfl
  case error =>
    intro path p ih
    rw [bareFold, unfold_error, Tree.fold_error, ih]
    rfl

theorem not_cyclic_of_bareFold {f : Tree.Algebra α} {a : α} (ha : h.bareFold f v = some a) :
    ¬h.Cyclic v := by
  refine (bareFold.mutual_partial_correctness h f (fun v _ => ¬h.Cyclic v)
    (fun row _ => ∀ e ∈ row.entries, ¬h.Cyclic e.2) (fun vs _ => ∀ w ∈ vs, ¬h.Cyclic w)
    ?value ?row ?items).1 v a ha
  case value =>
    intro fold foldRow foldItems hfold hrow hitems v a ha
    cases v with
    | atom b => exact h.not_cyclic_atom b
    | array r =>
      obtain ⟨parts, hparts, -⟩ := Option.bind_eq_some_iff.1 ha
      exact not_cyclic_array (hitems _ _ hparts)
    | map m =>
      obtain ⟨row, hrow', -⟩ := Option.bind_eq_some_iff.1 ha
      rw [cyclic_map_iff]
      rintro ⟨e, he, hcyclic⟩
      exact hrow _ _ hrow' e he hcyclic
    | error p =>
      obtain ⟨part, hpart, -⟩ := Option.bind_eq_some_iff.1 ha
      exact mt cyclic_error_iff.1 (hfold _ _ hpart)
  case row =>
    intro fold foldRow hfold hrow keys row a ha
    cases row with
    | nil => exact fun e he => absurd he List.not_mem_nil
    | cons k v rest =>
      obtain ⟨part, hpart, hrest⟩ := Option.bind_eq_some_iff.1 ha
      obtain ⟨parts, hparts, -⟩ := Option.bind_eq_some_iff.1 hrest
      exact List.forall_mem_cons.2 ⟨hfold _ _ hpart, hrow _ _ hparts⟩
  case items =>
    intro fold foldItems hfold hitems vs a ha
    cases vs with
    | nil => exact fun e he => absurd he List.not_mem_nil
    | cons v vs =>
      obtain ⟨part, hpart, hrest⟩ := Option.bind_eq_some_iff.1 ha
      obtain ⟨parts, hparts, -⟩ := Option.bind_eq_some_iff.1 hrest
      exact List.forall_mem_cons.2 ⟨hfold _ _ hpart, hitems _ _ hparts⟩

/-- Without a guard a value with a cycle has no result. -/
theorem bareFold_eq_none_iff (f : Tree.Algebra α) : h.bareFold f v = none ↔ h.Cyclic v := by
  constructor
  · intro hnone
    by_contra hv
    have hout := h.outside_nil v
    cases hnone.symm.trans (bareFold_eq f hv hout)
  · intro hcyclic
    rw [Option.eq_none_iff_forall_ne_some]
    intro a ha
    exact not_cyclic_of_bareFold ha hcyclic

/-! ### Writing -/

theorem bareSerialize_eq (hv : ¬h.Cyclic v) (hout : h.Outside path v) :
    h.bareSerialize v = encode? (h.unfold path v) := by
  rw [bareSerialize, bareFold_eq algebra hv hout, encode?]
  rfl

/-! ### Comparing -/

theorem bareEqualsItems_eq {g : Value × Value → Bool} {l : List (Value × Value)}
    (hl : ∀ p ∈ l, h.bareEquals p.1 p.2 = some (g p)) : h.bareEqualsItems l = some (l.all g) := by
  induction l with
  | nil =>
    rw [bareEqualsItems]
    rfl
  | cons p l ih =>
    obtain ⟨v, w⟩ := p
    have hp : h.bareEquals v w = some (g (v, w)) := hl (v, w) List.mem_cons_self
    have hrest := ih fun q hq => hl q (List.mem_cons_of_mem _ hq)
    rw [bareEqualsItems, hp, hrest, List.all_cons]
    cases g (v, w) <;> rfl

theorem bareEqualsEntries_eq {n : Dict Value} {g : Value → Value → Bool}
    {es : List (String × Value)}
    (hes : ∀ e ∈ es, ∀ w, n.get? e.1 = some w → h.bareEquals e.2 w = some (g e.2 w)) :
    h.bareEqualsEntries es n = some (es.all fun e => (n.get? e.1).any (g e.2)) := by
  induction es with
  | nil =>
    rw [bareEqualsEntries]
    rfl
  | cons e es ih =>
    obtain ⟨k, v⟩ := e
    have hrest := ih fun e he => hes e (List.mem_cons_of_mem _ he)
    rw [bareEqualsEntries, List.all_cons]
    cases hw : n.get? k with
    | none => rfl
    | some w =>
      have hp : h.bareEquals v w = some (g v w) := hes (k, v) List.mem_cons_self w hw
      simp only [hp, hrest, Option.any_some]
      cases g v w <;> rfl

theorem bareEquals_array_eq {g : Value × Value → Bool}
    (hitems : ∀ p ∈ (h.items r).zip (h.items s), h.bareEquals p.1 p.2 = some (g p)) :
    h.bareEquals (.array r) (.array s) =
      some ((h.items r).length == (h.items s).length && ((h.items r).zip (h.items s)).all g) := by
  rw [bareEquals, bareEqualsItems_eq hitems]
  by_cases hlen : (h.items r).length = (h.items s).length
  · rw [if_neg fun hne => hne hlen, beq_iff_eq.2 hlen, Bool.true_and]
  · rw [if_pos hlen, beq_eq_false_iff_ne.2 hlen]
    rfl

theorem bareEquals_map_eq {m n : Dict Value} {g : Value → Value → Bool}
    (hvalues : ∀ e ∈ m.entries, ∀ w, n.get? e.1 = some w → h.bareEquals e.2 w = some (g e.2 w)) :
    h.bareEquals (.map m) (.map n) =
      some (m.size == n.size && m.entries.all fun e => (n.get? e.1).any (g e.2)) := by
  rw [bareEquals, bareEqualsEntries_eq hvalues]
  by_cases hsize : m.size = n.size
  · rw [if_neg fun hne => hne hsize, beq_iff_eq.2 hsize, Bool.true_and]
  · rw [if_pos hsize, beq_eq_false_iff_ne.2 hsize]
    rfl

theorem bareEquals_mismatch (hatom : ∀ a b, v = .atom a → w = .atom b → False)
    (harray : ∀ r s, v = .array r → w = .array s → False)
    (hmap : ∀ m n, v = .map m → w = .map n → False)
    (herror : ∀ p q, v = .error p → w = .error q → False) :
    h.bareEquals v w = some (h.equalsUnder pairs v w) := by
  rw [bareEquals, equalsUnder]
  · rfl
  all_goals assumption

theorem FreeOfNaN.of_reaches (hv : h.FreeOfNaN v) (hvw : h.Reaches v w) : h.FreeOfNaN w :=
  fun x hx => hv x (hvw.trans hx)

theorem mem_zip_self {α : Type} {l : List α} {p : α × α} (hp : p ∈ l.zip l) :
    p.1 = p.2 ∧ p.1 ∈ l := by
  obtain ⟨i, hi⟩ := List.mem_iff_getElem?.1 hp
  obtain ⟨hi₁, hi₂⟩ := List.getElem?_zip_eq_some.1 hi
  exact ⟨Option.some.inj (hi₁.symm.trans hi₂), List.mem_of_getElem? hi₁⟩

/-- What the shortcut for arrays that share storage takes for granted. -/
theorem bareEquals_self (hv : ¬h.Cyclic v) (hfree : h.FreeOfNaN v) :
    h.bareEquals v v = some true := by
  have hout := h.outside_nil v
  revert hfree
  refine outside_induct h (P := fun _ v => h.FreeOfNaN v → h.bareEquals v v = some true)
    ?atom ?array ?map ?error hv hout
  case atom =>
    intro _ a hfree
    have hsame : a.Same a := Atom.same_self_iff.2 fun x hx => hfree x (by rw [hx]; exact .refl h _)
    rw [bareEquals, Atom.equals_iff_same.2 hsame]
    rfl
  case array =>
    intro _ r _ _ ih hfree
    have hitems (p : Value × Value) (hp : p ∈ (h.items r).zip (h.items r)) :
        h.bareEquals p.1 p.2 = some true := by
      obtain ⟨heq, hmem⟩ := mem_zip_self hp
      rw [← heq]
      exact ih p.1 hmem (hfree.of_reaches (.of_mem_items hmem))
    rw [bareEquals_array_eq (g := fun _ => true) hitems]
    simp
  case map =>
    intro _ m ih hfree
    have hvalues (e : String × Value) (he : e ∈ m.entries) (w : Value) (hw : m.get? e.1 = some w) :
        h.bareEquals e.2 w = some true := by
      obtain rfl : e.2 = w := Option.some.inj ((Dict.get?_eq_some_iff.2 he).symm.trans hw)
      exact ih e he (hfree.of_reaches (.of_mem_entries he))
    have hfound : m.entries.all fun e => (m.get? e.1).any fun _ => true := by
      rw [List.all_eq_true]
      intro e he
      rw [Dict.get?_eq_some_iff.2 he]
      rfl
    rw [bareEquals_map_eq (g := fun _ _ => true) hvalues, hfound, beq_self_eq_true]
    rfl
  case error =>
    intro _ p ih hfree
    rw [bareEquals]
    exact ih (hfree.of_reaches (.payload p))

/-- Nothing inside an array without a cycle leads back to it, so the pair that is assumed to be
equal is not met again. -/
theorem not_mem_arrayPairsOf_cons (hr : ¬h.Cyclic (.array r))
    (hpairs : ∀ p ∈ pairs, p ∉ h.arrayPairsOf (.array r) (.array s)) {q : Value × Value}
    (hq : q ∈ (h.items r).zip (h.items s)) :
    ∀ p ∈ (r, s) :: pairs, p ∉ h.arrayPairsOf q.1 q.2 := by
  intro p hp hmet
  rcases List.mem_cons.1 hp with rfl | hp
  · obtain ⟨path, hback, -⟩ := hmet
    exact hr (cyclic_array_iff.2 ⟨q.1, (List.of_mem_zip hq).1, .inl ⟨path, hback⟩⟩)
  · obtain ⟨i, ha, hb⟩ := exists_part?_of_mem_zip hq
    exact hpairs p hp (arrayPairsOf_subset _ ha hb hmet)

theorem bareEquals_eq (hv : ¬h.Cyclic v) (hfree : h.FreeOfNaN v) (w : Value)
    (hpairs : ∀ p ∈ pairs, p ∉ h.arrayPairsOf v w) :
    h.bareEquals v w = some (h.equalsUnder pairs v w) := by
  have hout := h.outside_nil v
  revert hfree w pairs
  refine outside_induct h (P := fun _ v => ∀ {pairs}, h.FreeOfNaN v → ∀ w,
    (∀ p ∈ pairs, p ∉ h.arrayPairsOf v w) → h.bareEquals v w = some (h.equalsUnder pairs v w))
    ?atom ?array ?map ?error hv hout
  case atom =>
    intro _ a pairs _ w _
    cases w with
    | atom b =>
      rw [bareEquals, equalsUnder_atom]
      rfl
    | _ => apply bareEquals_mismatch <;> simp
  case array =>
    intro _ r _ hr ih pairs hfree w hpairs
    cases w with
    | array s =>
      have hnew : (r, s) ∉ pairs := fun hmem => hpairs _ hmem (h.mem_arrayPairsOf_array r s)
      rw [equalsUnder_array, decide_eq_false hnew, Bool.or_false]
      by_cases hrs : r = s
      · subst hrs
        rw [bareEquals_self hr hfree, beq_self_eq_true]
        rfl
      · rw [beq_eq_false_iff_ne.2 hrs, Bool.false_or]
        apply bareEquals_array_eq
        intro q hq
        have hmem := (List.of_mem_zip hq).1
        exact ih q.1 hmem (hfree.of_reaches (.of_mem_items hmem)) q.2
          (not_mem_arrayPairsOf_cons hr hpairs hq)
    | _ => apply bareEquals_mismatch <;> simp
  case map =>
    intro _ m ih pairs hfree w hpairs
    cases w with
    | map n =>
      rw [equalsUnder_map_eq_lookup]
      apply bareEquals_map_eq
      intro e he w hw
      have hsub : h.arrayPairsOf e.2 w ⊆ h.arrayPairsOf (.map m) (.map n) :=
        arrayPairsOf_subset _ (part?_map_key_of_mem he) hw
      exact ih e he (hfree.of_reaches (.of_mem_entries he)) w fun p hp hmet =>
        hpairs p hp (hsub hmet)
    | _ => apply bareEquals_mismatch <;> simp
  case error =>
    intro _ p ih pairs hfree w hpairs
    cases w with
    | error q =>
      rw [bareEquals, equalsUnder_error]
      apply ih (hfree.of_reaches (.payload p)) q
      intro t ht hmet
      exact hpairs t ht (arrayPairsOf_subset .payload rfl rfl hmet)
    | _ => apply bareEquals_mismatch <;> simp

/-! ### The results with a guard -/

theorem orderly_bareFold (f : Tree.Algebra α) (hv : ¬h.Cyclic v) :
    ∃ a, h.bareFold f v = some a ∧ ∀ outer, h.Outside outer v →
      (h.unfold outer v).fold f = a ∧ Orderly id (h.arraysOf v) (h.walkFold f v) outer a := by
  have hnone := h.outside_nil v
  refine ⟨(h.tree v).fold f, bareFold_eq f hv hnone, fun outer hout => ?_⟩
  have hfold : (h.unfold outer v).fold f = (h.tree v).fold f :=
    Option.some.inj ((bareFold_eq f hv hout).symm.trans (bareFold_eq f hv hnone))
  have horderly := (ends_walkFold h f outer v).orderly (h.finite_arraysOf v)
  rw [hfold] at horderly
  exact ⟨hfold, horderly⟩

theorem orderly_bareSerialize (hv : ¬h.Cyclic v) :
    ∃ b, h.bareSerialize v = some b ∧ ∀ outer, h.Outside outer v →
      h.serialize v outer = some (.ok b, outer) ∧
        Orderly id (h.arraysOf v) (h.walkSerialize v) outer (.ok b) := by
  have hnone := h.outside_nil v
  obtain ⟨b, hb⟩ := Option.ne_none_iff_exists'.1 (mt encode?_tree_eq_none_iff.1 hv)
  have hbare : h.bareSerialize v = some b := (bareSerialize_eq hv hnone).trans hb
  refine ⟨b, hbare, fun outer hout => ?_⟩
  have hwritten : written (encode? (h.unfold outer v)) = .ok b := by
    rw [← bareSerialize_eq hv hout, hbare]
    rfl
  have hends := ends_serialize h outer v
  have horderly := (ends_walkSerialize h outer v).orderly (h.finite_arraysOf v)
  rw [hwritten] at hends horderly
  exact ⟨hends, horderly⟩

theorem orderly_bareEquals (hv : ¬h.Cyclic v) (hfree : h.FreeOfNaN v) (w : Value) :
    ∃ equal, h.bareEquals v w = some equal ∧
      ∀ outer, (∀ p ∈ outer, p ∉ h.arrayPairsOf v w) → h.equalsUnder outer v w = equal ∧
        Orderly id (h.arrayPairsOf v w) (h.walkEquals v w) outer equal := by
  have hbare : h.bareEquals v w = some (h.equals v w) :=
    bareEquals_eq hv hfree w fun p hp => absurd hp List.not_mem_nil
  refine ⟨h.equals v w, hbare, fun outer hout => ?_⟩
  have hequal : h.equalsUnder outer v w = h.equals v w :=
    Option.some.inj ((bareEquals_eq hv hfree w hout).symm.trans hbare)
  have horderly := (ends_walkEquals h outer v w).orderly (h.finite_arrayPairsOf v w)
  rw [hequal] at horderly
  exact ⟨hequal, horderly⟩

/-- The guards do not change what is made of a value without a cycle. The recursion without a guard
ends, and showing, writing and comparing the value give its result from every list that has none of
the arrays of the value, or none of the pairs of arrays that are compared, and leave that list as it
was. Without the shortcut for arrays that share storage a NaN is compared with itself, so for the
comparison the value has to be free of NaN. -/
theorem guards_keep_acyclic_answers (hv : ¬h.Cyclic v) :
    (∃ shown, h.bareFold Tree.displayAlgebra v = some shown ∧ h.display v = shown ∧
      ∀ outer, h.Outside outer v → (h.unfold outer v).display = shown ∧
        Orderly id (h.arraysOf v) (h.walkFold Tree.displayAlgebra v) outer shown) ∧
    (∃ shown, h.bareFold Tree.debugAlgebra v = some shown ∧ h.debug v = shown ∧
      ∀ outer, h.Outside outer v → (h.unfold outer v).debug = shown ∧
        Orderly id (h.arraysOf v) (h.walkFold Tree.debugAlgebra v) outer shown) ∧
    (∃ b, h.bareSerialize v = some b ∧
      ∀ outer, h.Outside outer v → h.serialize v outer = some (.ok b, outer) ∧
        Orderly id (h.arraysOf v) (h.walkSerialize v) outer (.ok b)) ∧
    (h.FreeOfNaN v → ∀ w, ∃ equal, h.bareEquals v w = some equal ∧ h.equals v w = equal ∧
      ∀ outer, (∀ p ∈ outer, p ∉ h.arrayPairsOf v w) → h.equalsUnder outer v w = equal ∧
        Orderly id (h.arrayPairsOf v w) (h.walkEquals v w) outer equal) := by
  have hnone := h.outside_nil v
  refine ⟨?_, ?_, orderly_bareSerialize hv, fun hfree w => ?_⟩
  · obtain ⟨shown, hbare, hwith⟩ := orderly_bareFold Tree.displayAlgebra hv
    exact ⟨shown, hbare, (hwith [] hnone).1, hwith⟩
  · obtain ⟨shown, hbare, hwith⟩ := orderly_bareFold Tree.debugAlgebra hv
    exact ⟨shown, hbare, (hwith [] hnone).1, hwith⟩
  · obtain ⟨equal, hbare, hwith⟩ := orderly_bareEquals hv hfree w
    exact ⟨equal, hbare, (hwith [] fun p hp => absurd hp List.not_mem_nil).1, hwith⟩

/-- An array that is shared is shown and compared at each of its places, also while another array is
being shown. -/
theorem guards_keep_acyclic_answers_twice :
    ¬twice.Cyclic (.array ⟨0⟩) ∧ twice.Outside [⟨2⟩] (.array ⟨0⟩) ∧
      twice.FreeOfNaN (.array ⟨0⟩) ∧
      twice.bareFold Tree.displayAlgebra (.array ⟨0⟩) = some "[[], []]" ∧
      (twice.unfold [⟨2⟩] (.array ⟨0⟩)).display = "[[], []]" ∧
      twice.bareEquals (.array ⟨0⟩) (.array ⟨0⟩) = some true ∧
      twice.equals (.array ⟨0⟩) (.array ⟨0⟩) = true := by
  have hinner : ¬twice.Cyclic (.array ⟨1⟩) := not_cyclic_array (by simp [twice, items])
  have hv : ¬twice.Cyclic (.array ⟨0⟩) := not_cyclic_array (by simpa [twice, items] using hinner)
  have hout : twice.Outside [⟨2⟩] (.array ⟨0⟩) := by
    intro t ht hreach
    obtain ⟨s, hs, heq⟩ := reaches_twice hreach
    cases heq
    cases List.mem_singleton.1 ht
    exact absurd hs (by decide)
  have hfree : twice.FreeOfNaN (.array ⟨0⟩) := by
    intro x hx
    obtain ⟨s, _, heq⟩ := reaches_twice hx
    cases heq
  have hbare : twice.bareFold Tree.displayAlgebra (.array ⟨0⟩) = some "[[], []]" := by
    simp [bareFold, bareFoldItems, twice, items, Tree.displayAlgebra]
  obtain ⟨⟨shown, hshown, -, hwith⟩, -, -, hequals⟩ := guards_keep_acyclic_answers hv
  obtain ⟨equal, hequal, heq, -⟩ := hequals hfree (.array ⟨0⟩)
  obtain rfl : shown = "[[], []]" := Option.some.inj (hshown.symm.trans hbare)
  obtain rfl : equal = true := Option.some.inj (hequal.symm.trans (bareEquals_self hv hfree))
  exact ⟨hv, hout, hfree, hbare, (hwith _ hout).1, hequal, heq⟩

end Heap

end ScriptHost
