import Mathlib.Data.String.Basic
import ScriptHost.Equality
import ScriptHost.Evaluation
import ScriptHost.Proofs.ByteOrder
/-!
# Comparisons of integers and of texts

The four comparisons read one ordering of their operands in different ways.
They belong to a total order, in which two operands stand at the same place
exactly if they are equal. The order of texts is that of their bytes and of
their code points.
-/

namespace ScriptHost

/-- One of the statements is true and the other two are false. -/
def ExactlyOne (p q r : Prop) : Prop :=
  (p ∧ ¬ q ∧ ¬ r) ∨ (¬ p ∧ q ∧ ¬ r) ∨ (¬ p ∧ ¬ q ∧ r)

namespace Comparison

variable {o : Ordering}

@[simp] theorem holds_less : less.holds o = true ↔ o = .lt := by
  cases o <;> decide

@[simp] theorem holds_greater : greater.holds o = true ↔ o = .gt := by
  cases o <;> decide

@[simp] theorem holds_lessEq : lessEq.holds o = true ↔ o.isLE = true := by
  cases o <;> decide

@[simp] theorem holds_greaterEq : greaterEq.holds o = true ↔ o.isGE = true := by
  cases o <;> decide

end Comparison

theorem exactlyOne_ordering (o : Ordering) : ExactlyOne (o = .lt) (o = .eq) (o = .gt) := by
  cases o <;> simp [ExactlyOne]

namespace Heap

/-- A comparison answers that it is true and leaves the heap as it is. -/
def Holds (h : Heap) (c : Comparison) (v w : Value) : Prop :=
  h.apply (.compare c) v w = .ok (.bool true, h)

/-- Values of one kind are compared as the members of a total order, in which the values that
stand at the same place are those that are equal. -/
structure OrdersTotally {α : Type} (h : Heap) (value : α → Value) : Prop where
  decided : ∀ c a b, ∃ answer, h.apply (.compare c) (value a) (value b) = .ok (.bool answer, h)
  exactlyOne : ∀ a b, ExactlyOne (h.Holds .less (value a) (value b))
    (h.equals (value a) (value b) = true) (h.Holds .greater (value a) (value b))
  lessEq_iff : ∀ a b, h.Holds .lessEq (value a) (value b) ↔
    h.Holds .less (value a) (value b) ∨ h.equals (value a) (value b) = true
  greaterEq_iff : ∀ a b,
    h.Holds .greaterEq (value a) (value b) ↔ h.Holds .lessEq (value b) (value a)
  greater_iff : ∀ a b, h.Holds .greater (value a) (value b) ↔ h.Holds .less (value b) (value a)
  less_trans : ∀ a b c, h.Holds .less (value a) (value b) → h.Holds .less (value b) (value c) →
    h.Holds .less (value a) (value c)
  lessEq_trans : ∀ a b c, h.Holds .lessEq (value a) (value b) →
    h.Holds .lessEq (value b) (value c) → h.Holds .lessEq (value a) (value c)

variable {h : Heap}

/-- Whatever the values are, it is enough that the comparisons read an ordering of them that is
total and lawful. -/
theorem ordersTotally_of_compare {α : Type} [Ord α] [Std.TransOrd α] [Std.LawfulEqOrd α]
    {value : α → Value}
    (happly : ∀ c a b, h.apply (.compare c) (value a) (value b) =
      .ok (.bool (c.holds (compare a b)), h))
    (hequals : ∀ a b, h.equals (value a) (value b) = true ↔ a = b) :
    h.OrdersTotally value := by
  have hholds (c : Comparison) (a b : α) :
      h.Holds c (value a) (value b) ↔ c.holds (compare a b) = true := by
    rw [Holds, happly]
    simp
  have heq (a b : α) : h.equals (value a) (value b) = true ↔ compare a b = .eq := by
    rw [hequals, Std.compare_eq_iff_eq]
  constructor
  case decided => exact fun c a b => ⟨_, happly c a b⟩
  case exactlyOne =>
    intro a b
    simpa [hholds, heq] using exactlyOne_ordering (compare a b)
  case lessEq_iff =>
    intro a b
    simp only [hholds, heq, Comparison.holds_lessEq, Comparison.holds_less]
    exact Ordering.isLE_iff_eq_lt_or_eq_eq
  case greaterEq_iff =>
    intro a b
    rw [hholds, hholds, Comparison.holds_greaterEq, Comparison.holds_lessEq]
    exact Std.OrientedCmp.isGE_iff_isLE
  case greater_iff =>
    intro a b
    rw [hholds, hholds, Comparison.holds_greater, Comparison.holds_less]
    exact Std.OrientedCmp.gt_iff_lt
  case less_trans =>
    intro a b c hab hbc
    simp only [hholds, Comparison.holds_less] at hab hbc ⊢
    exact Std.TransCmp.lt_trans hab hbc
  case lessEq_trans =>
    intro a b c hab hbc
    simp only [hholds, Comparison.holds_lessEq] at hab hbc ⊢
    exact Std.TransCmp.isLE_trans hab hbc

theorem ordersTotally_int (h : Heap) : h.OrdersTotally Value.int :=
  ordersTotally_of_compare (fun _ _ _ => rfl) fun _ _ => by simp [equals, Atom.equals]

theorem ordersTotally_string (h : Heap) : h.OrdersTotally Value.string :=
  ordersTotally_of_compare (fun _ _ _ => rfl) fun _ _ => by simp [equals, Atom.equals]

/-! ### The order of texts -/

variable {s t : String}

theorem holds_less_string_iff :
    h.Holds .less (.string s) (.string t) ↔ s < t := by
  have happly : h.apply (.compare .less) (.string s) (.string t) =
      .ok (.bool (Comparison.less.holds (compare s t)), h) := rfl
  have hcompare : compare s t = .lt ↔ s < t := Std.LawfulLTCmp.eq_lt_iff_lt
  rw [Holds, happly, ← hcompare]
  simp

end Heap

namespace Text

variable {s t : String}

/-- Characters are ordered by their code points, and so are lists of them. -/
theorem map_toNat_lt_iff : s.toList.map Char.toNat < t.toList.map Char.toNat ↔ s < t := by
  have hchar (c d : Char) (h : c < d) : c.toNat < d.toNat := h
  exact map_lt_iff_of_mono (f := fun s => s.toList.map Char.toNat)
    fun h => List.map_lt hchar (String.lt_iff_toList_lt.1 h)

theorem lt_append_iff : s < s ++ t ↔ t ≠ "" := by
  constructor
  · rintro h rfl
    rw [String.append_empty] at h
    exact lt_irrefl s h
  · intro ht
    obtain ⟨c, rest, hc⟩ := List.exists_cons_of_ne_nil (mt String.toList_eq_nil_iff.1 ht)
    have hlt : s.toList ++ [] < s.toList ++ c :: rest :=
      List.append_left_lt (List.nil_lt_cons c rest)
    rwa [List.append_nil, ← hc, ← String.toList_append, ← String.lt_iff_toList_lt] at hlt

end Text

/-- The comparisons of integers and those of texts are those of a total order that agrees with
equality. Texts are ordered like their bytes, and so like their code points; a text comes before
each sum of it with a text that is not empty. -/
theorem Heap.comparisons_order_totally (h : Heap) :
    h.OrdersTotally Value.int ∧ h.OrdersTotally Value.string ∧
    (∀ s t, h.Holds .less (.string s) (.string t) ↔ Text.toBytes s < Text.toBytes t) ∧
    (∀ s t, Text.toBytes s < Text.toBytes t ↔
      s.toList.map Char.toNat < t.toList.map Char.toNat) ∧
    ∀ s t, ∃ u, h.apply .add (.string s) (.string t) = .ok (.string u, h) ∧
      (h.Holds .less (.string s) (.string u) ↔ t ≠ "") :=
  ⟨h.ordersTotally_int, h.ordersTotally_string,
    fun _ _ => holds_less_string_iff.trans Text.toBytes_lt_iff.symm,
    fun _ _ => Text.toBytes_lt_iff.trans Text.map_toNat_lt_iff.symm,
    fun s t => ⟨s ++ t, rfl, holds_less_string_iff.trans Text.lt_append_iff⟩⟩

end ScriptHost
