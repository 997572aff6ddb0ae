import ScriptHost.MessagePack
import ScriptHost.Proofs.Path
/-!
# Cycles and the binary form

A value has no binary form if and only if it reaches an array that is reached
from its own elements, however often other arrays are shared.
-/

namespace ScriptHost

namespace MessagePack

variable {t : Tree} {ts : List Tree} {m : Dict Tree} {b : List UInt8}

/-! ### The binary form of each kind of tree -/

theorem collect_eq_some_iff {α : Type} {l : List (Option α)} {as : List α} :
    collect l = some as ↔ l = as.map some := by
  induction l generalizing as with
  | nil => cases as <;> simp [collect]
  | cons o l ih =>
    cases o with
    | none => cases as <;> simp [collect]
    | some a =>
      cases as with
      | nil => simp [collect]
      | cons a' as => simp [collect, ih, and_comm]

theorem collect_eq_none_iff {α : Type} {l : List (Option α)} : collect l = none ↔ none ∈ l := by
  induction l with
  | nil => simp [collect]
  | cons o l ih => cases o <;> simp [collect, ih]

@[simp] theorem encode?_atom (a : Atom) : encode? (.atom a) = some (atom a) := by
  simp [encode?, algebra]

@[simp] theorem encode?_ancestor (up : Nat) : encode? (.ancestor up) = none := by
  simp [encode?, algebra]

theorem encode?_array :
    encode? (.array ts) =
      (collect (ts.map encode?)).map fun bs => arrayHeader bs.length ++ bs.flatten := by
  simp only [encode?, Tree.fold_array, algebra]
  rfl

theorem encode?_map :
    encode? (.map m) =
      (collect (m.entries.map fun e => (encode? e.2).map (e.1, ·))).map entries := by
  simp only [encode?, Tree.fold_map, algebra, Dict.entries_map, List.map_map]
  rfl

theorem encode?_error : encode? (.error t) = (encode? t).map fun b => entries [("error", b)] := by
  simp only [encode?, Tree.fold_error, algebra]

theorem encode?_array_eq_none : encode? (.array ts) = none ↔ ∃ t ∈ ts, encode? t = none := by
  rw [encode?_array, Option.map_eq_none_iff, collect_eq_none_iff, List.mem_map]

theorem encode?_map_eq_none :
    encode? (.map m) = none ↔ ∃ e ∈ m.entries, encode? e.2 = none := by
  rw [encode?_map, Option.map_eq_none_iff, collect_eq_none_iff, List.mem_map]
  simp only [Option.map_eq_none_iff]

theorem encode?_error_eq_none : encode? (.error t) = none ↔ encode? t = none := by
  rw [encode?_error, Option.map_eq_none_iff]

end MessagePack

namespace Heap

/-- The value reaches an array that is reached from its own elements. -/
def Cyclic (h : Heap) (v : Value) : Prop :=
  ∃ r, h.Reaches v (.array r) ∧ ∃ w ∈ h.items r, h.Reaches w (.array r)

variable {h : Heap} {v w : Value} {r s : Ref} {path : List Ref}

/-- What a value reaches is the value itself, or one of its parts reaches it. -/
theorem reaches_iff : h.Reaches v w ↔ v = w ∨ ∃ st u, h.part? v st = some u ∧ h.Reaches u w := by
  constructor
  · rintro ⟨p, hp⟩
    cases p with
    | nil => exact .inl (Option.some.inj hp)
    | cons st p =>
      obtain ⟨u, hu, hp⟩ := Option.bind_eq_some_iff.1 hp
      exact .inr ⟨st, u, hu, p, hp⟩
  · rintro (rfl | ⟨st, u, hu, huw⟩)
    · exact .refl h v
    · exact (Reaches.of_part? hu).trans huw

theorem reaches_atom_iff {a : Atom} : h.Reaches (.atom a) w ↔ .atom a = w := by
  rw [reaches_iff]
  refine or_iff_left ?_
  rintro ⟨st, u, hu, _⟩
  cases st <;> simp [part?] at hu

theorem reaches_array_iff : h.Reaches (.array r) w ↔
    .array r = w ∨ ∃ u ∈ h.items r, h.Reaches u w := by
  rw [reaches_iff]
  refine or_congr_right ⟨?_, ?_⟩
  · rintro ⟨st, u, hu, huw⟩
    exact ⟨u, mem_items_of_part? hu, huw⟩
  · rintro ⟨u, hu, huw⟩
    obtain ⟨i, hi⟩ := exists_part?_of_mem_items hu
    exact ⟨.item i, u, hi, huw⟩

theorem reaches_map_iff {m : Dict Value} : h.Reaches (.map m) w ↔
    .map m = w ∨ ∃ e ∈ m.entries, h.Reaches e.2 w := by
  rw [reaches_iff]
  refine or_congr_right ⟨?_, ?_⟩
  · rintro ⟨st, u, hu, huw⟩
    cases st with
    | key k => exact ⟨(k, u), Dict.get?_eq_some_iff.1 hu, huw⟩
    | item i => cases hu
    | payload => cases hu
  · rintro ⟨e, he, hew⟩
    exact ⟨.key e.1, e.2, part?_map_key_of_mem he, hew⟩

theorem reaches_error_iff {p : Value} : h.Reaches (.error p) w ↔ .error p = w ∨ h.Reaches p w := by
  rw [reaches_iff]
  apply or_congr_right
  constructor
  · rintro ⟨st, u, hu, huw⟩
    cases st with
    | payload =>
      cases hu
      exact huw
    | item i => cases hu
    | key k => cases hu
  · intro hpw
    exact ⟨.payload, p, rfl, hpw⟩

theorem Cyclic.of_reaches (hvw : h.Reaches v w) (hw : h.Cyclic w) : h.Cyclic v := by
  obtain ⟨r, hr, hback⟩ := hw
  exact ⟨r, hvw.trans hr, hback⟩

theorem cyclic_array_iff :
    h.Cyclic (.array r) ↔ ∃ w ∈ h.items r, h.Reaches w (.array r) ∨ h.Cyclic w := by
  constructor
  · rintro ⟨s, hs, hback⟩
    rcases reaches_array_iff.1 hs with heq | ⟨w, hw, hws⟩
    · cases heq
      obtain ⟨w, hw, hws⟩ := hback
      exact ⟨w, hw, .inl hws⟩
    · exact ⟨w, hw, .inr ⟨s, hws, hback⟩⟩
  · rintro ⟨w, hw, hback | hcyclic⟩
    · exact ⟨r, .refl h _, w, hw, hback⟩
    · exact hcyclic.of_reaches (.of_mem_items hw)

theorem cyclic_map_iff {m : Dict Value} : h.Cyclic (.map m) ↔ ∃ e ∈ m.entries, h.Cyclic e.2 := by
  constructor
  · rintro ⟨s, hs, hback⟩
    obtain ⟨e, he, hes⟩ := (reaches_map_iff.1 hs).resolve_left nofun
    exact ⟨e, he, s, hes, hback⟩
  · rintro ⟨e, he, hcyclic⟩
    exact hcyclic.of_reaches (.of_mem_entries he)

theorem cyclic_error_iff {p : Value} : h.Cyclic (.error p) ↔ h.Cyclic p := by
  constructor
  · rintro ⟨s, hs, hback⟩
    exact ⟨s, (reaches_error_iff.1 hs).resolve_left nofun, hback⟩
  · exact Cyclic.of_reaches (.payload p)

theorem not_cyclic_atom (h : Heap) (a : Atom) : ¬h.Cyclic (.atom a) := by
  rintro ⟨r, hr, -⟩
  cases reaches_atom_iff.1 hr

/-- A way back to the array from one of its elements goes through that element again. -/
theorem not_cyclic_array (hitems : ∀ w ∈ h.items r, ¬h.Cyclic w) : ¬h.Cyclic (.array r) := by
  intro hcyclic
  obtain ⟨w, hw, hback | hinside⟩ := cyclic_array_iff.1 hcyclic
  · exact hitems w hw ⟨r, hback, w, hw, hback⟩
  · exact hitems w hw hinside

/-- A tree without binary form goes back to an array around it, or round a cycle of the value. -/
theorem encode?_unfold_eq_none_iff :
    MessagePack.encode? (h.unfold path v) = none ↔
      (∃ r ∈ path, h.Reaches v (.array r)) ∨ h.Cyclic v := by
  induction path, v using traversal_induct h with
  | atom path a => simp [Cyclic, reaches_atom_iff]
  | ancestor path r up hr =>
    have hmem : r ∈ path := List.isSome_idxOf?.1 (by rw [hr]; rfl)
    rw [unfold_array_of_idxOf? hr]
    simp only [MessagePack.encode?_ancestor, true_iff]
    exact .inl ⟨r, hmem, .refl h _⟩
  | array path r hr ih =>
    rw [unfold_array_of_not_mem hr, MessagePack.encode?_array_eq_none, cyclic_array_iff]
    simp only [List.mem_map, exists_exists_and_eq_and, reaches_array_iff]
    constructor
    · rintro ⟨w, hw, hnone⟩
      rcases (ih w hw).1 hnone with ⟨s, hs, hws⟩ | hcyclic
      · rcases List.mem_cons.1 hs with rfl | hs
        · exact .inr ⟨w, hw, .inl hws⟩
        · exact .inl ⟨s, hs, .inr ⟨w, hw, hws⟩⟩
      · exact .inr ⟨w, hw, .inr hcyclic⟩
    · rintro (⟨s, hs, heq | ⟨w, hw, hws⟩⟩ | ⟨w, hw, hback | hcyclic⟩)
      · cases heq
        exact absurd hs hr
      · exact ⟨w, hw, (ih w hw).2 (.inl ⟨s, List.mem_cons_of_mem r hs, hws⟩)⟩
      · exact ⟨w, hw, (ih w hw).2 (.inl ⟨r, List.mem_cons_self, hback⟩)⟩
      · exact ⟨w, hw, (ih w hw).2 (.inr hcyclic)⟩
  | map path m ih =>
    rw [unfold_map, MessagePack.encode?_map_eq_none, cyclic_map_iff, Dict.entries_map]
    simp only [List.mem_map, exists_exists_and_eq_and, reaches_map_iff]
    constructor
    · rintro ⟨e, he, hnone⟩
      rcases (ih e he).1 hnone with ⟨s, hs, hes⟩ | hcyclic
      · exact .inl ⟨s, hs, .inr ⟨e, he, hes⟩⟩
      · exact .inr ⟨e, he, hcyclic⟩
    · rintro (⟨s, hs, heq | ⟨e, he, hes⟩⟩ | ⟨e, he, hcyclic⟩)
      · cases heq
      · exact ⟨e, he, (ih e he).2 (.inl ⟨s, hs, hes⟩)⟩
      · exact ⟨e, he, (ih e he).2 (.inr hcyclic)⟩
  | error path p ih =>
    rw [unfold_error, MessagePack.encode?_error_eq_none, ih, cyclic_error_iff]
    simp only [reaches_error_iff, reduceCtorEq, false_or]

theorem encode?_tree_eq_none_iff : MessagePack.encode? (h.tree v) = none ↔ h.Cyclic v := by
  rw [tree, encode?_unfold_eq_none_iff]
  simp

end Heap

end ScriptHost
