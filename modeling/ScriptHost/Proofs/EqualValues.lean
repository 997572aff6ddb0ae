import ScriptHost.Evaluation
import ScriptHost.Proofs.Observation
import ScriptHost.Proofs.PartialEquivalence
import ScriptHost.Proofs.SerializationFailure
/-!
# Equal values cannot be told apart

Values that are equal unfold to the same tree, whatever arrays they share,
if they have no cycle and no float. So their texts and their binary forms are
the same, and an operator that is applied to equal values gives equal results.
A cycle may be unfolded from another of its arrays, and the zeros of both
signs are equal floats with different texts.
-/

namespace ScriptHost

variable {R : Ref → Ref → Prop} {v v' w w' x : Value} {r r' s s' t t' : Ref}

theorem Value.Related.kind_eq (hvw : v.Related R w) : v.kind = w.kind := by
  cases hvw with
  | atom same => cases same <;> rfl
  | array related => rfl
  | map keys values => rfl
  | error payload => rfl

theorem Atom.Same.eq {a b : Atom} (hab : a.Same b) (ha : ∀ x, a ≠ .float x) : a = b := by
  cases hab with
  | float h => exact absurd rfl (ha _)
  | _ => rfl

theorem forall₂_values {P : Value → Value → Prop} {m n : Dict Value} (hkeys : m.keys = n.keys)
    (hvalues : ∀ k a b, m.get? k = some a → n.get? k = some b → P a b) :
    List.Forall₂ P m.values n.values := by
  have hlength : m.values.length = n.values.length := by
    have hentries := congrArg List.length hkeys
    rw [← m.map_fst_entries, ← n.map_fst_entries, List.length_map, List.length_map] at hentries
    rw [Dict.values, Dict.values, List.length_map, List.length_map, hentries]
  refine List.forall₂_iff_zip.2 ⟨hlength, ?_⟩
  intro a b hab
  obtain ⟨k, ha, hb⟩ := (Dict.mem_zip_values_iff hkeys).1 hab
  exact hvalues k a b ha hb

theorem map_eq_map_of_forall₂ {α β : Type} {P : α → α → Prop} {f g : α → β} {l m : List α}
    (hlm : List.Forall₂ P l m) (hfg : ∀ a ∈ l, ∀ b ∈ m, P a b → f a = g b) :
    l.map f = m.map g := by
  induction hlm with
  | nil => rfl
  | @cons a b l m hab _ ih =>
    rw [List.map_cons, List.map_cons, hfg a List.mem_cons_self b List.mem_cons_self hab,
      ih fun c hc d hd => hfg c (List.mem_cons_of_mem a hc) d (List.mem_cons_of_mem b hd)]

namespace Heap

/-- A value of the heap that reaches no cyclic array and no float. -/
structure Plain (h : Heap) (v : Value) : Prop where
  owns : h.Owns v
  not_cyclic : ¬h.Cyclic v
  ne_float : ∀ x, ¬h.Reaches v (.float x)

variable {h h' h₁ : Heap} {path path' : List Ref} {op : Operator}

theorem Plain.of_reaches (hv : h.Plain v) (hvw : h.Reaches v w) : h.Plain w where
  owns := hv.owns.of_reaches hvw
  not_cyclic hw := hv.not_cyclic (hw.of_reaches hvw)
  ne_float x hx := hv.ne_float x (hvw.trans hx)

theorem Plain.of_mem_items (hr : h.Plain (.array r)) (hw : w ∈ h.items r) : h.Plain w :=
  hr.of_reaches (.of_mem_items hw)

theorem Plain.of_mem_values {m : Dict Value} (hm : h.Plain (.map m)) (hw : w ∈ m.values) :
    h.Plain w := by
  obtain ⟨e, he, rfl⟩ := List.mem_map.1 hw
  exact hm.of_reaches (.of_mem_entries he)

theorem Plain.atom_eq {a b : Atom} (ha : h.Plain (.atom a)) (hab : a.Same b) : a = b := by
  apply hab.eq
  rintro x rfl
  exact ha.ne_float x (.refl h _)

theorem Plain.eq_atom {a : Atom} (hv : h.Plain v) (hvv' : v.Related h.Bisimilar v')
    (ha : v = .atom a) : v' = .atom a := by
  subst ha
  cases hvv' with
  | atom same => rw [hv.atom_eq same]

theorem Plain.not_float {y : Float} (hv : h.Plain v) : v ≠ .float y := by
  rintro rfl
  exact hv.ne_float y (.refl h _)

theorem reaches_of_shows (hvw : v.Shows w) : h.Reaches v w := by
  induction hvw with
  | refl v => exact .refl h v
  | entry he _ ih => exact (Reaches.of_mem_entries he).trans ih
  | payload _ ih => exact (Reaches.payload _).trans ih

theorem Plain.equals_self (hv : h.Plain v) : h.equals v v = true := by
  apply equals_self_iff.2
  intro x hx
  exact absurd (reaches_of_shows hx) (hv.ne_float x)

/-- The elements of equal arrays are equal one by one, also if the arrays are one and the same. -/
theorem Plain.forall₂_items (hr : h.Plain (.array r)) (hrs : h.Bisimilar r s) :
    List.Forall₂ (Value.Related h.Bisimilar) (h.items r) (h.items s) := by
  rcases h.bisimulation_bisimilar r s hrs with rfl | hitems
  · apply List.forall₂_same.2
    intro w hw
    exact equals_iff_related.1 (hr.of_mem_items hw).equals_self
  · exact hitems

/-! ### Equal values have the same tree -/

/-- A path of arrays around a value from which none of them is reached. -/
def Outside (h : Heap) (path : List Ref) (v : Value) : Prop :=
  ∀ t ∈ path, ¬h.Reaches v (.array t)

theorem outside_nil (h : Heap) (v : Value) : h.Outside [] v :=
  fun _ ht => absurd ht List.not_mem_nil

theorem Outside.of_reaches (hv : h.Outside path v) (hvw : h.Reaches v w) : h.Outside path w :=
  fun t ht hwt => hv t ht (hvw.trans hwt)

theorem Outside.not_mem (hr : h.Outside path (.array r)) : r ∉ path :=
  fun hmem => hr r hmem (.refl h _)

theorem Outside.of_mem_items (hout : h.Outside path (.array r)) (hr : ¬h.Cyclic (.array r))
    (hw : w ∈ h.items r) : h.Outside (r :: path) w := by
  intro t ht hwt
  rcases List.mem_cons.1 ht with rfl | ht
  · exact hr (cyclic_array_iff.2 ⟨w, hw, .inl hwt⟩)
  · exact hout t ht ((Reaches.of_mem_items hw).trans hwt)

theorem unfold_eq_of_related (hvv' : v.Related h.Bisimilar v') (hv : h.Plain v)
    (hv' : h.Plain v') (hout : h.Outside path v) (hout' : h.Outside path' v') :
    h.unfold path v = h.unfold path' v' := by
  -- The two values are inside of different arrays, but neither reaches back to those it is in.
  induction path, v using traversal_induct h generalizing path' v' with
  | atom path a =>
    cases hvv' with
    | atom same => rw [unfold_atom, unfold_atom, hv.atom_eq same]
  | ancestor path r up hr =>
    exact absurd (List.isSome_idxOf?.1 (by rw [hr]; rfl)) hout.not_mem
  | array path r hr ih =>
    cases hvv' with
    | array related =>
      rw [unfold_array_of_not_mem hr, unfold_array_of_not_mem hout'.not_mem]
      congr 1
      apply map_eq_map_of_forall₂ (hv.forall₂_items related)
      intro a ha b hb hab
      exact ih a ha hab (hv.of_mem_items ha) (hv'.of_mem_items hb)
        (hout.of_mem_items hv.not_cyclic ha) (hout'.of_mem_items hv'.not_cyclic hb)
  | map path m ih =>
    cases hvv' with
    | @map m n keys values =>
      have hkeys := Dict.keys_eq_iff.2 keys
      rw [unfold_map, unfold_map]
      congr 1
      apply Dict.eq_of_keys_eq_of_values_eq (by simpa using hkeys)
      rw [Dict.values_map, Dict.values_map]
      apply map_eq_map_of_forall₂ (forall₂_values hkeys values)
      intro a ha b hb hab
      have hb' := hv'.of_mem_values hb
      obtain ⟨e, he, rfl⟩ := List.mem_map.1 ha
      obtain ⟨e', he', rfl⟩ := List.mem_map.1 hb
      exact ih e he hab (hv.of_mem_values ha) hb' (hout.of_reaches (.of_mem_entries he))
        (hout'.of_reaches (.of_mem_entries he'))
  | error path p ih =>
    cases hvv' with
    | @error p q payload =>
      have hp := Reaches.payload (h := h) p
      have hq := Reaches.payload (h := h) q
      rw [unfold_error, unfold_error, ih payload (hv.of_reaches hp) (hv'.of_reaches hq)
        (hout.of_reaches hp) (hout'.of_reaches hq)]

theorem Plain.tree_eq (hv : h.Plain v) (hv' : h.Plain v') (hvv' : h.equals v v' = true) :
    h.tree v = h.tree v' :=
  unfold_eq_of_related (equals_iff_related.1 hvv') hv hv' (h.outside_nil v) (h.outside_nil v')

theorem Plain.isFalsy_eq (hv : h.Plain v) (hvv' : v.Related h.Bisimilar v') :
    h.isFalsy v = h.isFalsy v' := by
  cases hvv' with
  | atom same => rw [hv.atom_eq same]
  | array related =>
    have hlength := (hv.forall₂_items related).length_eq
    rw [isFalsy, isFalsy, Bool.eq_iff_iff, List.isEmpty_iff, List.isEmpty_iff,
      ← List.length_eq_zero_iff, ← List.length_eq_zero_iff, hlength]
  | map keys values => rw [isFalsy, isFalsy, Dict.isEmpty, Dict.isEmpty, Dict.keys_eq_iff.2 keys]
  | error payload => rfl

/-! ### Operators between equal values -/

/-- Unless both are arrays, what operands contribute to a result is their kind, the content of
atoms and, beside a text, the display text on the right. -/
theorem apply_eq_of_related (hvv' : v.Related R v') (hww' : w.Related R w')
    (hv : ∀ a, v = .atom a → v' = .atom a) (hw : ∀ a, w = .atom a → w' = .atom a)
    (hdisplay : h.display w = h.display w') (hvw : ∀ r s, v = .array r → w ≠ .array s) :
    h.apply op v w = h.apply op v' w' := by
  cases hvv' with
  | @atom a b _ =>
    cases hv a rfl
    cases hww' with
    | @atom a b _ =>
      cases hw a rfl
      rfl
    | array _ => cases a <;> simp [apply, hdisplay, Value.kind]
    | map _ _ => cases a <;> simp [apply, hdisplay, Value.kind]
    | error _ => cases a <;> simp [apply, hdisplay, Value.kind]
  | array _ =>
    cases hww' with
    | atom _ =>
      cases hw _ rfl
      rfl
    | array _ => exact absurd rfl (hvw _ _ rfl)
    | map _ _ => rfl
    | error _ => rfl
  | map _ _ =>
    cases hww' with
    | atom _ =>
      cases hw _ rfl
      rfl
    | _ => rfl
  | error _ =>
    cases hww' with
    | atom _ =>
      cases hw _ rfl
      rfl
    | _ => rfl

theorem exists_apply_add_arrays (h : Heap) (r s : Ref) :
    ∃ t h', h.apply .add (.array r) (.array s) = .ok (.array t, h') ∧ h.Extends h' ∧ t ∈ h' ∧
      h'.items t = h.items r ++ h.items s :=
  ⟨_, _, apply_add_arrays h r s, extends_alloc h _, alloc_mem h _, items_alloc_self h _⟩

theorem apply_arrays_of_ne_add (h : Heap) (hop : op ≠ .add) (r s : Ref) :
    h.apply op (.array r) (.array s) = .error (.invalidOperator op .array .array) :=
  if_neg hop

theorem related_of_extends (hh : h.Extends h') (hv : h.Owns v) (hw : h.Owns w)
    (hvw : v.Related h.Bisimilar w) : v.Related h'.Bisimilar w := by
  rw [← equals_iff_related] at hvw ⊢
  exact (Agrees.equalsUnder_eq [] v w (hh.agrees hv) (hh.agrees hw)).trans hvw

theorem bisimilar_of_items
    (hitems : List.Forall₂ (Value.Related h.Bisimilar) (h.items r) (h.items s)) :
    h.Bisimilar r s := by
  refine ⟨fun a b => h.Bisimilar a b ∨ a = r ∧ b = s, ?_, .inr ⟨rfl, rfl⟩⟩
  have hmono (v w : Value) (hvw : v.Related h.Bisimilar w) :
      v.Related (fun a b => h.Bisimilar a b ∨ a = r ∧ b = s) w :=
    hvw.mono fun _ _ => .inl
  rintro a b (hab | ⟨rfl, rfl⟩)
  · exact (h.bisimulation_bisimilar a b hab).imp id fun hitems => hitems.imp hmono
  · exact .inr (hitems.imp hmono)

theorem forall₂_items_of_extends (hh : h.Extends h') (hr : h.Plain (.array r))
    (hs : h.Plain (.array s)) (hrs : h.Bisimilar r s) :
    List.Forall₂ (Value.Related h'.Bisimilar) (h.items r) (h.items s) := by
  obtain ⟨hlength, hitems⟩ := List.forall₂_iff_zip.1 (hr.forall₂_items hrs)
  refine List.forall₂_iff_zip.2 ⟨hlength, ?_⟩
  intro a b hab
  obtain ⟨ha, hb⟩ := List.of_mem_zip hab
  exact related_of_extends hh (hr.of_mem_items ha).owns (hs.of_mem_items hb).owns (hitems hab)

/-- Arrays with the elements of equal arrays, one after the other, are equal. -/
theorem bisimilar_of_items_append (hh : h.Extends h') (hr : h.Plain (.array r))
    (hr' : h.Plain (.array r')) (hs : h.Plain (.array s)) (hs' : h.Plain (.array s'))
    (hrr' : h.Bisimilar r r') (hss' : h.Bisimilar s s')
    (ht : h'.items t = h.items r ++ h.items s) (ht' : h'.items t' = h.items r' ++ h.items s') :
    h'.Bisimilar t t' := by
  apply bisimilar_of_items
  rw [ht, ht']
  exact List.rel_append (forall₂_items_of_extends hh hr hr' hrr')
    (forall₂_items_of_extends hh hs hs' hss')

/-- What two evaluations of one operator, one after the other, have in common: the fault, or
results that are equal where both exist. -/
def SameResult (h : Heap) (op : Operator) (v w v' w' : Value) : Prop :=
  (∃ e, h.apply op v w = .error e ∧ h.apply op v' w' = .error e) ∨
    ∃ x h₁ x' h₂, h.apply op v w = .ok (x, h₁) ∧ h₁.apply op v' w' = .ok (x', h₂) ∧
      h₂.equals x x' = true

theorem sameResult_arrays (hr : h.Plain (.array r)) (hr' : h.Plain (.array r'))
    (hs : h.Plain (.array s)) (hs' : h.Plain (.array s')) (hrr' : h.Bisimilar r r')
    (hss' : h.Bisimilar s s') : h.SameResult op (.array r) (.array s) (.array r') (.array s') := by
  by_cases hop : op = .add
  · subst hop
    obtain ⟨t, h₁, hfirst, hh₁, htmem, ht⟩ := exists_apply_add_arrays h r s
    obtain ⟨t', h₂, hsecond, hh₂, _, ht'⟩ := exists_apply_add_arrays h₁ r' s'
    refine .inr ⟨_, _, _, _, hfirst, hsecond, equals_iff_related.2 (.array ?_)⟩
    apply bisimilar_of_items_append (hh₁.trans hh₂) hr hr' hs hs' hrr' hss'
    · rw [hh₂.items_eq t htmem, ht]
    · rw [ht', hh₁.items_eq r' (hr'.owns r' (.refl h _)), hh₁.items_eq s' (hs'.owns s' (.refl h _))]
  · exact .inl ⟨_, apply_arrays_of_ne_add h hop r s, apply_arrays_of_ne_add h hop r' s'⟩

theorem sameResult_of_not_arrays (hv : h.Plain v) (hw : h.Plain w)
    (hw' : h.Plain w') (hvv' : v.Related h.Bisimilar v') (hww' : w.Related h.Bisimilar w')
    (hvw : ∀ r s, v = .array r → w ≠ .array s) : h.SameResult op v w v' w' := by
  have hdisplay : h.display w = h.display w' := by
    rw [display, display, hw.tree_eq hw' (equals_iff_related.2 hww')]
  have heq : h.apply op v w = h.apply op v' w' :=
    apply_eq_of_related hvv' hww' (fun _ => hv.eq_atom hvv') (fun _ => hw.eq_atom hww') hdisplay hvw
  cases hx : h.apply op v w with
  | error e => exact .inl ⟨e, hx, heq ▸ hx⟩
  | ok result =>
    obtain ⟨x, h₁⟩ := result
    rcases apply_eq_ok hx with ⟨r, s, hr, hs, _⟩ | ⟨rfl, a, rfl, ha⟩
    · exact absurd hs (hvw r s hr)
    · refine .inr ⟨_, _, _, _, hx, heq ▸ hx, ?_⟩
      apply equals_self_iff.2
      rintro y ⟨⟩
      obtain ⟨z, hz | hz⟩ := ha y rfl
      · exact (hv.not_float hz).elim
      · exact (hw.not_float hz).elim

theorem sameResult_of_equals (hv : h.Plain v) (hv' : h.Plain v') (hw : h.Plain w)
    (hw' : h.Plain w') (hvv' : h.equals v v' = true) (hww' : h.equals w w' = true)
    (op : Operator) : h.SameResult op v w v' w' := by
  rw [equals_iff_related] at hvv' hww'
  by_cases hvw : ∀ r s, v = .array r → w ≠ .array s
  · exact sameResult_of_not_arrays hv hw hw' hvv' hww' hvw
  · push Not at hvw
    obtain ⟨r, s, rfl, rfl⟩ := hvw
    cases hvv' with
    | array hrr' =>
      cases hww' with
      | array hss' => exact sameResult_arrays hv hv' hw hw' hrr' hss'

/-! ### Indistinguishable values -/

theorem Plain.serialize_eq (hv : h.Plain v) (htree : h.tree v = h.tree v') :
    ∃ b, h.serialize v [] = some (.ok b, []) ∧ h.serialize v' [] = some (.ok b, []) := by
  obtain ⟨b, hb⟩ := Option.ne_none_iff_exists'.1 fun hnone =>
    hv.not_cyclic (encode?_tree_eq_none_iff.1 hnone)
  have hwritten : MessagePack.written (MessagePack.encode? (h.tree v)) = .ok b := by
    rw [hb]
    rfl
  refine ⟨b, ?_, ?_⟩
  · rw [← hwritten]
    exact ends_serialize h [] v
  · rw [← hwritten, htree]
    exact ends_serialize h [] v'

/-- Whatever is observed of one value alone is the same of the other. Both have a binary form. -/
structure Indistinguishable (h : Heap) (v v' : Value) : Prop where
  kind : v.kind = v'.kind
  isFalsy : h.isFalsy v = h.isFalsy v'
  display : h.display v = h.display v'
  debug : h.debug v = h.debug v'
  serialize : ∃ b, h.serialize v [] = some (.ok b, []) ∧ h.serialize v' [] = some (.ok b, [])

/-- Equal values without cycles and floats are indistinguishable, and no operator tells pairs of
them apart. -/
theorem equals_implies_indistinguishable (hv : h.Plain v) (hv' : h.Plain v') (hw : h.Plain w)
    (hw' : h.Plain w') (hvv' : h.equals v v' = true) (hww' : h.equals w w' = true) :
    h.Indistinguishable v v' ∧ ∀ op, h.SameResult op v w v' w' := by
  have htree := hv.tree_eq hv' hvv'
  have hrelated := equals_iff_related.1 hvv'
  refine ⟨⟨hrelated.kind_eq, hv.isFalsy_eq hrelated, ?_, ?_, hv.serialize_eq htree⟩, ?_⟩
  · rw [display, display, htree]
  · rw [debug, debug, htree]
  · exact sameResult_of_equals hv hv' hw hw' hvv' hww'

theorem plain_atom {a : Atom} (ha : ∀ x, a ≠ .float x) : h.Plain (.atom a) where
  owns r hr := by simp [reaches_atom_iff] at hr
  not_cyclic := h.not_cyclic_atom a
  ne_float x hx := ha x (Value.atom.inj (reaches_atom_iff.1 hx))

theorem plain_array (hr : r ∈ h) (hitems : ∀ w ∈ h.items r, h.Plain w) : h.Plain (.array r) where
  owns s hs := by
    rcases reaches_array_iff.1 hs with heq | ⟨w, hw, hws⟩
    · cases heq
      exact hr
    · exact (hitems w hw).owns s hws
  not_cyclic := not_cyclic_array fun w hw => (hitems w hw).not_cyclic
  ne_float x hx := by
    obtain ⟨w, hw, hwx⟩ := (reaches_array_iff.1 hx).resolve_left nofun
    exact (hitems w hw).ne_float x hwx

/-- An array that holds one array twice, and one that holds two arrays with the same element. -/
def doubled : Heap :=
  ⟨#[[.array ⟨1⟩, .array ⟨1⟩], [.int 5], [.array ⟨3⟩, .array ⟨4⟩], [.int 5], [.int 5]]⟩

theorem plain_doubled_five (hr : r ∈ doubled) (hfive : doubled.items r = [.int 5]) :
    doubled.Plain (.array r) := by
  apply plain_array hr
  rw [hfive, List.forall_mem_singleton]
  exact plain_atom nofun

theorem plain_doubled (hr : r ∈ doubled) (hs : s ∈ doubled) (ht : t ∈ doubled)
    (hitems : doubled.items r = [.array s, .array t]) (hs' : doubled.items s = [.int 5])
    (ht' : doubled.items t = [.int 5]) : doubled.Plain (.array r) := by
  apply plain_array hr
  simpa [hitems] using ⟨plain_doubled_five hs hs', plain_doubled_five ht ht'⟩

theorem equals_doubled : doubled.equals (.array ⟨0⟩) (.array ⟨2⟩) = true := by
  simp [equals, equalsUnder_array, doubled, items, Atom.equals]

/-- The sharing of an array between two places is not seen. -/
theorem equals_implies_indistinguishable_doubled :
    doubled.Plain (.array ⟨0⟩) ∧ doubled.Plain (.array ⟨2⟩) ∧
      doubled.equals (.array ⟨0⟩) (.array ⟨2⟩) = true ∧
      doubled.Indistinguishable (.array ⟨0⟩) (.array ⟨2⟩) ∧
      doubled.SameResult .add (.array ⟨0⟩) (.array ⟨0⟩) (.array ⟨2⟩) (.array ⟨2⟩) := by
  have hshared : doubled.Plain (.array ⟨0⟩) :=
    plain_doubled (by decide) (s := ⟨1⟩) (by decide) (t := ⟨1⟩) (by decide) rfl rfl rfl
  have hapart : doubled.Plain (.array ⟨2⟩) :=
    plain_doubled (by decide) (s := ⟨3⟩) (by decide) (t := ⟨4⟩) (by decide) rfl rfl rfl
  obtain ⟨halike, hresult⟩ := equals_implies_indistinguishable hshared hapart hshared hapart
    equals_doubled equals_doubled
  exact ⟨hshared, hapart, equals_doubled, halike, hresult .add⟩

end Heap

end ScriptHost
