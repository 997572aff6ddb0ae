import Mathlib.Data.List.Nodup
import ScriptHost.Proofs.Extension
import ScriptHost.Unfolding
/-!
# Paths into values

A path names a part of a value by the elements, keys and payloads that lead
to it. What can be said of a value with its arrays is said along its paths:
which arrays it reaches, which of them a path meets twice, and what the finite
tree of the value has at the end of a path.
-/

namespace ScriptHost

/-- A step from a value to one of its parts. -/
inductive Step where
  | item (i : Nat)
  | key (k : String)
  | payload
deriving DecidableEq, Repr

/-- What is seen of a value without looking into its parts. -/
inductive Face where
  | atom (a : Atom)
  | array (length : Nat)
  | map (keys : List String)
  | error
deriving DecidableEq

namespace Heap

/-- The part of a value that a step leads to. -/
def part? (h : Heap) : Value → Step → Option Value
  | .array r, .item i => h.get? r i
  | .map m, .key k => m.get? k
  | .error p, .payload => some p
  | _, _ => none

def follow? (h : Heap) : Value → List Step → Option Value
  | v, [] => some v
  | v, s :: p => (h.part? v s).bind fun w => h.follow? w p

/-- The arrays that a path meets from its start to its end, both included. -/
def met (h : Heap) : Value → List Step → List Ref
  | v, [] => v.array?.toList
  | v, s :: p =>
    v.array?.toList ++ match h.part? v s with
      | some w => h.met w p
      | none => []

/-- A value reaches another along some path. -/
def Reaches (h : Heap) (v w : Value) : Prop :=
  ∃ p, h.follow? v p = some w

/-- Every array that the value reaches is an array of the heap. -/
def Owns (h : Heap) (v : Value) : Prop :=
  ∀ r, h.Reaches v (.array r) → r ∈ h

/-- The face of a value. Of an array it shows the number of its elements. -/
def face (h : Heap) : Value → Face
  | .atom a => .atom a
  | .array r => .array (h.items r).length
  | .map m => .map m.keys
  | .error _ => .error

variable {h h' : Heap} {v w u : Value} {s : Step} {p q : List Step} {path : List Ref}

/-! ### Following a path -/

@[simp] theorem follow?_nil : h.follow? v [] = some v := rfl

@[simp] theorem follow?_cons :
    h.follow? v (s :: p) = (h.part? v s).bind fun w => h.follow? w p := rfl

theorem follow?_append :
    h.follow? v (p ++ q) = (h.follow? v p).bind fun w => h.follow? w q := by
  induction p generalizing v with
  | nil => rfl
  | cons s p ih => simp [ih, Option.bind_assoc]

theorem part?_array_eq_some {r : Ref} :
    h.part? (.array r) s = some w ↔ ∃ i, s = .item i ∧ (h.items r)[i]? = some w := by
  cases s <;> simp [part?, get?]

theorem mem_items_of_part? {r : Ref} (hw : h.part? (.array r) s = some w) : w ∈ h.items r := by
  obtain ⟨i, _, hi⟩ := part?_array_eq_some.1 hw
  exact List.mem_of_getElem? hi

theorem exists_part?_of_mem_items {r : Ref} (hw : w ∈ h.items r) :
    ∃ i, h.part? (.array r) (.item i) = some w := by
  obtain ⟨i, hi⟩ := List.mem_iff_getElem?.1 hw
  exact ⟨i, part?_array_eq_some.2 ⟨i, rfl, hi⟩⟩

theorem part?_map_key_of_mem {m : Dict Value} {e : String × Value} (he : e ∈ m.entries) :
    h.part? (.map m) (.key e.1) = some e.2 :=
  Dict.get?_eq_some_iff.2 he

/-! ### Reaching a part -/

theorem Reaches.refl (h : Heap) (v : Value) : h.Reaches v v :=
  ⟨[], rfl⟩

theorem Reaches.trans (hvw : h.Reaches v w) (hwu : h.Reaches w u) : h.Reaches v u := by
  obtain ⟨p, hp⟩ := hvw
  obtain ⟨q, hq⟩ := hwu
  exact ⟨p ++ q, by rw [follow?_append, hp]; exact hq⟩

theorem Reaches.of_part? (hw : h.part? v s = some w) : h.Reaches v w :=
  ⟨[s], by simp [hw]⟩

theorem Reaches.of_mem_items {r : Ref} (hw : w ∈ h.items r) : h.Reaches (.array r) w := by
  obtain ⟨i, hi⟩ := exists_part?_of_mem_items hw
  exact .of_part? hi

theorem Reaches.of_mem_entries {m : Dict Value} {e : String × Value} (he : e ∈ m.entries) :
    h.Reaches (.map m) e.2 :=
  .of_part? (part?_map_key_of_mem he)

theorem Reaches.payload (p : Value) : h.Reaches (.error p) p :=
  .of_part? (s := .payload) rfl

/-- What holds of a value and passes from a value to its parts holds of all that is reached. -/
theorem Reaches.induct {P : Value → Prop} (hvw : h.Reaches v w) (start : P v)
    (step : ∀ a s b, P a → h.part? a s = some b → P b) : P w := by
  obtain ⟨p, hp⟩ := hvw
  induction p generalizing v with
  | nil =>
    cases hp
    exact start
  | cons s p ih =>
    obtain ⟨b, hb, hp⟩ := Option.bind_eq_some_iff.1 hp
    exact ih (step v s b start hb) hp

theorem Owns.of_reaches (hv : h.Owns v) (hvw : h.Reaches v w) : h.Owns w :=
  fun r hr => hv r (hvw.trans hr)

/-! ### Agreement along all paths -/

/-- The two heaps have the same elements in every array that the value reaches in the first. -/
def Agrees (h h' : Heap) (v : Value) : Prop :=
  ∀ r, h.Reaches v (.array r) → h'.items r = h.items r

theorem Extends.agrees (hh : h.Extends h') (hv : h.Owns v) : h.Agrees h' v :=
  fun r hr => hh.items_eq r (hv r hr)

theorem Agrees.of_reaches (hv : h.Agrees h' v) (hvw : h.Reaches v w) : h.Agrees h' w :=
  fun r hr => hv r (hvw.trans hr)

theorem Agrees.of_mem_items {r : Ref} (hr : h.Agrees h' (.array r)) (hw : w ∈ h.items r) :
    h.Agrees h' w :=
  hr.of_reaches (.of_mem_items hw)

theorem Agrees.items_eq {r : Ref} (hr : h.Agrees h' (.array r)) : h'.items r = h.items r :=
  hr r (.refl h _)

theorem Agrees.part?_eq (hv : h.Agrees h' v) (s : Step) : h'.part? v s = h.part? v s := by
  cases v with
  | array r => cases s <;> simp [part?, get?, hv.items_eq]
  | atom a => cases s <;> rfl
  | map m => cases s <;> rfl
  | error p => cases s <;> rfl

theorem Agrees.follow?_eq (hv : h.Agrees h' v) (p : List Step) :
    h'.follow? v p = h.follow? v p := by
  induction p generalizing v with
  | nil => rfl
  | cons s p ih =>
    rw [follow?_cons, follow?_cons, hv.part?_eq]
    cases hw : h.part? v s with
    | none => rfl
    | some w => exact ih (hv.of_reaches (.of_part? hw))

theorem Agrees.reaches_iff (hv : h.Agrees h' v) : h'.Reaches v w ↔ h.Reaches v w := by
  simp only [Reaches, hv.follow?_eq]

theorem Agrees.face_eq (hv : h.Agrees h' v) : h'.face v = h.face v := by
  cases v with
  | array r => simp [face, hv.items_eq]
  | atom a => rfl
  | map m => rfl
  | error p => rfl

/-- Induction along a traversal that keeps the arrays it is inside of on a path and stops at an
array that is on it. -/
theorem traversal_induct (h : Heap) {P : List Ref → Value → Prop}
    (atom : ∀ path a, P path (.atom a))
    (ancestor : ∀ path r up, path.idxOf? r = some up → P path (.array r))
    (array : ∀ path r, r ∉ path → (∀ v ∈ h.items r, P (r :: path) v) → P path (.array r))
    (map : ∀ path (m : Dict Value), (∀ e ∈ m.entries, P path e.2) → P path (.map m))
    (error : ∀ path p, P path p → P path (.error p)) (path : List Ref) (v : Value) : P path v := by
  induction path, v using unfold.induct h with
  | case1 path a => exact atom path a
  | case2 path r up hr => exact ancestor path r up hr
  | case3 path r hr ih => exact array path r (by simpa using hr) ih
  | case4 path m ih => exact map path m fun e he => ih e.2 (Value.sizeOf_lt_map he)
  | case5 path p ih => exact error path p ih

theorem Agrees.unfold_eq (hv : h.Agrees h' v) (path : List Ref) :
    h'.unfold path v = h.unfold path v := by
  induction path, v using traversal_induct h with
  | atom path a => simp
  | ancestor path r up hr => rw [unfold_array_of_idxOf? hr, unfold_array_of_idxOf? hr]
  | array path r hr ih =>
    rw [unfold_array_of_not_mem hr, unfold_array_of_not_mem hr, hv.items_eq]
    congr 1
    apply List.map_congr_left
    intro w hw
    exact ih w hw (hv.of_mem_items hw)
  | map path m ih =>
    rw [unfold_map, unfold_map]
    congr 1
    apply Dict.map_congr
    intro e he
    exact ih e he (hv.of_reaches (.of_mem_entries he))
  | error path p ih => rw [unfold_error, unfold_error, ih (hv.of_reaches (.payload p))]

theorem Agrees.tree_eq (hv : h.Agrees h' v) : h'.tree v = h.tree v :=
  hv.unfold_eq []

end Heap

end ScriptHost
