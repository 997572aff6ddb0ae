import ScriptHost.Evaluation
import ScriptHost.Proofs.Observation
/-!
# Concatenation

A sum puts its operands one after the other, however it is bracketed: bytes,
the elements of arrays, and behind a text the texts of any values. A sum of
arrays is a new array. It keeps its elements when the operands change, and an
array among the elements is the very one that the operand holds.
-/

namespace ScriptHost

/-- A sum with its brackets. -/
inductive SumTree where
  | operand (v : Value)
  | plus (x y : SumTree)

namespace SumTree

/-- The operands from left to right. -/
def operands : SumTree → List Value
  | operand v => [v]
  | plus x y => x.operands ++ y.operands

/-- A text stands on the left of every plus. -/
inductive IsText : SumTree → Prop where
  | string (s : String) : IsText (operand (.string s))
  | append {x y : SumTree} (hx : IsText x) (hy : IsText y) : IsText (plus x y)
  | display {x : SumTree} (hx : IsText x) (v : Value) : IsText (plus x (operand v))

/-- Adds values to a sum, one after the other. -/
def addAll (x : SumTree) (vs : List Value) : SumTree :=
  vs.foldl (fun x v => plus x (operand v)) x

/-- The two ways to bracket a sum of three operands. -/
def bracketings (u v w : Value) : List SumTree :=
  [plus (plus (operand u) (operand v)) (operand w), plus (operand u) (plus (operand v) (operand w))]

variable {x : SumTree} {u v w : Value}

theorem operands_of_mem_bracketings (hx : x ∈ bracketings u v w) : x.operands = [u, v, w] := by
  rcases List.mem_pair.1 hx with rfl | rfl <;> simp [operands]

theorem isText_of_mem_bracketings {a b : String}
    (hx : x ∈ bracketings (.string a) (.string b) v) : x.IsText := by
  rcases List.mem_pair.1 hx with rfl | rfl
  · exact ((IsText.string a).display (.string b)).display v
  · exact (IsText.string a).append ((IsText.string b).display v)

theorem operands_addAll (x : SumTree) (vs : List Value) :
    (x.addAll vs).operands = x.operands ++ vs := by
  induction vs generalizing x with
  | nil => simp [addAll]
  | cons v vs ih =>
    rw [addAll, List.foldl_cons, ← addAll, ih, operands, operands, List.append_assoc,
      List.singleton_append]

theorem IsText.addAll (hx : x.IsText) (vs : List Value) : (x.addAll vs).IsText := by
  induction vs generalizing x with
  | nil => exact hx
  | cons v vs ih => exact ih (hx.display v)

end SumTree

namespace Heap

/-- The value of a sum, with the heap afterwards. The left side of a plus is evaluated first. -/
def sum (h : Heap) : SumTree → Except Fault (Value × Heap)
  | .operand v => .ok (v, h)
  | .plus x y =>
    match h.sum x with
    | .error e => .error e
    | .ok (v, h) =>
      match h.sum y with
      | .error e => .error e
      | .ok (w, h) => h.apply .add v w

/-- What a value adds to a text: the characters of a text, and the display text of anything
else. -/
def addedText (h : Heap) : Value → String
  | .string s => s
  | v => h.display v

/-- An array of the second heap has the elements of arrays of the first, one array after the
other. -/
structure Concatenates (h : Heap) (rs : List Ref) (h' : Heap) (t : Ref) : Prop where
  grows : h.Extends h'
  mem : t ∈ h'
  items_eq : h'.items t = rs.flatMap h.items

variable {h h₁ h₂ h' : Heap} {x y : SumTree} {v w : Value} {r s t : Ref} {rs ss : List Ref}
  {cs : List Change}

theorem sum_plus (hx : h.sum x = .ok (v, h₁)) (hy : h₁.sum y = .ok (w, h₂)) :
    h.sum (.plus x y) = h₂.apply .add v w := by
  simp only [sum, hx, hy]

/-! ### Bytes -/

theorem apply_add_bytes (h : Heap) (a b : List UInt8) :
    h.apply .add (.bytes a) (.bytes b) = .ok (.bytes (a ++ b), h) := by
  simp [apply, Value.bytes]

theorem sum_bytes {bs : List (List UInt8)} (hx : x.operands = bs.map .bytes) :
    h.sum x = .ok (.bytes bs.flatten, h) := by
  induction x generalizing bs with
  | operand v =>
    obtain ⟨b, rest, rfl, rfl, hnil⟩ := List.map_eq_cons_iff.1 hx.symm
    rw [List.map_eq_nil_iff.1 hnil, List.flatten_singleton, sum]
  | plus x y ihx ihy =>
    obtain ⟨bs₁, bs₂, rfl, hx, hy⟩ := List.map_eq_append_iff.1 hx.symm
    rw [sum_plus (ihx hx.symm) (ihy hy.symm), List.flatten_append, apply_add_bytes]

/-! ### Texts -/

theorem apply_add_string (h : Heap) (s : String) (v : Value) :
    h.apply .add (.string s) v = .ok (.string (s ++ h.addedText v), h) := by
  cases v with
  | atom a => cases a <;> rfl
  | _ => rfl

theorem sum_text (hx : x.IsText) :
    h.sum x = .ok (.string (String.join (x.operands.map h.addedText)), h) := by
  induction hx with
  | string s => simp [sum, SumTree.operands, addedText]
  | append hx hy ihx ihy =>
    rw [sum_plus ihx ihy, apply_add_string, SumTree.operands, List.map_append, String.join_append,
      addedText]
  | display hx v ihx =>
    have hv : h.sum (.operand v) = .ok (v, h) := by rw [sum]
    rw [sum_plus ihx hv, apply_add_string, SumTree.operands, SumTree.operands,
      List.map_append, String.join_append, List.map_singleton]
    simp

theorem sum_addAll (s : String) (vs : List Value) :
    h.sum (SumTree.addAll (.operand (.string s)) vs) =
      .ok (.string (s ++ String.join (vs.map h.addedText)), h) := by
  rw [sum_text ((SumTree.IsText.string s).addAll vs), SumTree.operands_addAll, SumTree.operands,
    List.singleton_append, List.map_cons, String.join_cons, addedText]

/-! ### Arrays -/

theorem Concatenates.single (hr : r ∈ h) : h.Concatenates [r] h r :=
  ⟨.refl h, hr, by rw [List.flatMap_singleton]⟩

theorem Concatenates.flatMap_items (hr : h.Concatenates rs h' r) (hss : ∀ s ∈ ss, s ∈ h) :
    ss.flatMap h'.items = ss.flatMap h.items :=
  List.flatMap_congr fun s hs => hr.grows.items_eq s (hss s hs)

/-- The sum of two arrays is a new array. -/
theorem Concatenates.add (hr : h.Concatenates rs h₁ r) (hs : h₁.Concatenates ss h₂ s)
    (hss : ∀ s ∈ ss, s ∈ h) : ∃ t h', h₂.apply .add (.array r) (.array s) = .ok (.array t, h') ∧
      h.Concatenates (rs ++ ss) h' t ∧ t ∉ h := by
  have hgrows := hr.grows.trans hs.grows
  have hitems : h₂.items r ++ h₂.items s = (rs ++ ss).flatMap h.items := by
    rw [hs.grows.items_eq r hr.mem, hr.items_eq, hs.items_eq, hr.flatMap_items hss,
      List.flatMap_append]
  refine ⟨_, _, apply_add_arrays h₂ r s, ⟨hgrows.trans (extends_alloc h₂ _), alloc_mem h₂ _, ?_⟩,
    fun hmem => alloc_not_mem h₂ _ (hgrows.mem hmem)⟩
  rw [items_alloc_self, hitems]

theorem sum_arrays (hx : x.operands = rs.map .array) (hrs : ∀ r ∈ rs, r ∈ h) :
    ∃ t h', h.sum x = .ok (.array t, h') ∧ h.Concatenates rs h' t ∧ (1 < rs.length → t ∉ h) := by
  induction x generalizing h rs with
  | operand v =>
    obtain ⟨r, rest, rfl, rfl, hnil⟩ := List.map_eq_cons_iff.1 hx.symm
    obtain rfl := List.map_eq_nil_iff.1 hnil
    exact ⟨r, h, by rw [sum], .single (hrs r List.mem_cons_self), by simp⟩
  | plus x y ihx ihy =>
    obtain ⟨rs₁, rs₂, rfl, hx, hy⟩ := List.map_eq_append_iff.1 hx.symm
    have hrs₁ (r : Ref) (hr : r ∈ rs₁) : r ∈ h := hrs r (List.mem_append_left rs₂ hr)
    have hrs₂ (r : Ref) (hr : r ∈ rs₂) : r ∈ h := hrs r (List.mem_append_right rs₁ hr)
    obtain ⟨r, h₁, hsumx, hr, -⟩ := ihx hx.symm hrs₁
    obtain ⟨s, h₂, hsumy, hs, -⟩ := ihy hy.symm fun r hmem => hr.grows.mem (hrs₂ r hmem)
    obtain ⟨t, h', hadd, ht, hnew⟩ := hr.add hs hrs₂
    exact ⟨t, h', (sum_plus hsumx hsumy).trans hadd, ht, fun _ => hnew⟩

/-! ### After later changes -/

/-- An array of the second heap has the elements of two arrays of the first. It keeps them through
any changes that do not aim at it, and a path through it goes on in its elements as they are by
then. -/
structure IsSnapshot (h : Heap) (a b : Ref) (h' : Heap) (t : Ref) : Prop where
  grows : h.Extends h'
  mem : t ∈ h'
  not_mem : t ∉ h
  length_eq : (h'.items t).length = (h.items a).length + (h.items b).length
  items_run : ∀ cs, (∀ c ∈ cs, c.target? ≠ some t) → (h'.run cs).items t = h.items a ++ h.items b
  follow?_run : ∀ cs, (∀ c ∈ cs, c.target? ≠ some t) →
    ∀ i v p, (h.items a ++ h.items b)[i]? = some v →
      (h'.run cs).follow? (.array t) (.item i :: p) = (h'.run cs).follow? v p

theorem Concatenates.isSnapshot {a b : Ref} (ht : h.Concatenates [a, b] h' t) (hnew : t ∉ h) :
    h.IsSnapshot a b h' t := by
  have hitems : h'.items t = h.items a ++ h.items b := by simpa using ht.items_eq
  have hrun (cs : List Change) (hcs : ∀ c ∈ cs, c.target? ≠ some t) :
      (h'.run cs).items t = h.items a ++ h.items b := by
    rw [items_run_of_ne ht.mem hcs, hitems]
  refine ⟨ht.grows, ht.mem, hnew, by rw [hitems, List.length_append], hrun, ?_⟩
  intro cs hcs i v p hv
  rw [follow?_cons, part?_array_eq_some.2 ⟨i, rfl, by rw [hrun cs hcs, hv]⟩, Option.bind_some]

/-- Addition puts bytes, arrays and texts one after the other. Both ways to bracket three operands
come to the same, and so does a text with any number of values behind it. A sum of arrays is a new
array with the elements that the operands have at the time. -/
theorem add_associative_and_fresh (h : Heap) :
    (∀ a b c, ∀ x ∈ SumTree.bracketings (.bytes a) (.bytes b) (.bytes c),
      h.sum x = .ok (.bytes (a ++ b ++ c), h)) ∧
    (∀ a ∈ h, ∀ b ∈ h, ∀ c ∈ h, ∀ x ∈ SumTree.bracketings (.array a) (.array b) (.array c),
      ∃ t h', h.sum x = .ok (.array t, h') ∧ h.Extends h' ∧ t ∈ h' ∧ t ∉ h ∧
        h'.items t = h.items a ++ h.items b ++ h.items c) ∧
    (∀ a b v, ∀ x ∈ SumTree.bracketings (.string a) (.string b) v,
      h.sum x = .ok (.string (a ++ b ++ h.addedText v), h)) ∧
    (∀ s vs, h.sum (SumTree.addAll (.operand (.string s)) vs) =
      .ok (.string (s ++ String.join (vs.map h.addedText)), h)) ∧
    (∀ a ∈ h, ∀ b ∈ h, ∃ t h', h.apply .add (.array a) (.array b) = .ok (.array t, h') ∧
      h.IsSnapshot a b h' t) := by
  refine ⟨?bytes, ?arrays, ?texts, h.sum_addAll, ?fresh⟩
  case bytes =>
    intro a b c x hx
    have hoperands : x.operands = [a, b, c].map .bytes := SumTree.operands_of_mem_bracketings hx
    rw [sum_bytes hoperands]
    simp
  case arrays =>
    intro a ha b hb c hc x hx
    have hoperands : x.operands = [a, b, c].map .array := SumTree.operands_of_mem_bracketings hx
    obtain ⟨t, h', hsum, ht, hnew⟩ := sum_arrays (h := h) hoperands (by simp [ha, hb, hc])
    exact ⟨t, h', hsum, ht.grows, ht.mem, hnew (by simp), by simpa using ht.items_eq⟩
  case texts =>
    intro a b v x hx
    rw [sum_text (SumTree.isText_of_mem_bracketings hx), SumTree.operands_of_mem_bracketings hx]
    simp [addedText, String.append_assoc]
  case fresh =>
    intro a ha b hb
    obtain ⟨t, h', hadd, ht, hnew⟩ :=
      (Concatenates.single ha).add (.single hb) (List.forall_mem_singleton.2 hb)
    exact ⟨t, h', hadd, ht.isSnapshot hnew⟩

/-- An array that holds itself is added to itself. The sum does not change with it, and shows the
change in its elements. -/
theorem add_associative_and_fresh_knot :
    ∃ t h', (Heap.mk #[[.array ⟨0⟩]]).apply .add (.array ⟨0⟩) (.array ⟨0⟩) = .ok (.array t, h') ∧
      (h'.run [.push ⟨0⟩ .undefined]).items t = [.array ⟨0⟩, .array ⟨0⟩] ∧
      (h'.run [.push ⟨0⟩ .undefined]).follow? (.array t) [.item 1, .item 1] = some .undefined := by
  obtain ⟨-, -, -, -, hfresh⟩ := add_associative_and_fresh (Heap.mk #[[.array ⟨0⟩]])
  obtain ⟨t, h', hadd, ht⟩ := hfresh ⟨0⟩ (by decide) ⟨0⟩ (by decide)
  have hother (c : Change) (hc : c ∈ [Change.push ⟨0⟩ .undefined]) : c.target? ≠ some t := by
    obtain rfl := List.mem_singleton.1 hc
    rintro ⟨⟩
    exact ht.not_mem (by decide)
  have hitems : (h'.run [.push ⟨0⟩ .undefined]).items ⟨0⟩ = [.array ⟨0⟩, .undefined] := by
    rw [run_cons, run_nil, change, push, items_write_self _ (ht.grows.mem (by decide)),
      ht.grows.items_eq ⟨0⟩ (by decide)]
    simp [items]
  refine ⟨t, h', hadd, ht.items_run _ hother, ?_⟩
  rw [ht.follow?_run _ hother 1 (.array ⟨0⟩) [.item 1] rfl, follow?_cons, part?, get?, hitems]
  simp

end Heap

end ScriptHost
