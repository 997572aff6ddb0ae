import Mathlib.Data.List.Forall2
import Mathlib.Order.Bounds.Basic
import ScriptHost.Equality
/-!
# Equality is bisimilarity

Comparing two values assumes that pairs of arrays on the way are equal. The
main statement says that this decides the greatest relation between arrays
under which related arrays share storage or have related elements. One half
looks through finitely many arrays at a time; the other follows the
comparison.
-/

namespace ScriptHost

/-- Atoms with the same content. Floats are compared as numbers, so NaN is not the same as
itself, and a callable is the same only as itself. -/
inductive Atom.Same : Atom → Atom → Prop where
  | undefined : Same .undefined .undefined
  | bool (b : Bool) : Same (.bool b) (.bool b)
  | int (n : Int64) : Same (.int n) (.int n)
  | float {x y : Float} (h : (x == y) = true) : Same (.float x) (.float y)
  | string (s : String) : Same (.string s) (.string s)
  | bytes (b : List UInt8) : Same (.bytes b) (.bytes b)
  | builtin (f : Builtin) : Same (.builtin f) (.builtin f)

theorem Atom.equals_iff_same {a b : Atom} : a.equals b = true ↔ a.Same b := by
  constructor
  · intro h
    cases a <;> cases b <;> simp only [Atom.equals, beq_iff_eq, Bool.false_eq_true] at h
    case undefined.undefined => exact .undefined
    case bool.bool => exact h ▸ .bool _
    case int.int => exact h ▸ .int _
    case float.float => exact .float h
    case string.string => exact h ▸ .string _
    case bytes.bytes => exact h ▸ .bytes _
    case builtin.builtin => exact h ▸ .builtin _
  · intro h
    cases h <;> simp_all [Atom.equals]

/-- Values with the same shape, the same atoms, and arrays in the relation `R` at the same
places. -/
inductive Value.Related (R : Ref → Ref → Prop) : Value → Value → Prop where
  | atom {a b : Atom} (same : a.Same b) : Related R (.atom a) (.atom b)
  | array {r s : Ref} (related : R r s) : Related R (.array r) (.array s)
  | map {m n : Dict Value} (keys : ∀ k, k ∈ m.keys ↔ k ∈ n.keys)
      (values : ∀ k v w, m.get? k = some v → n.get? k = some w → Related R v w) :
      Related R (.map m) (.map n)
  | error {p q : Value} (payload : Related R p q) : Related R (.error p) (.error q)

namespace Heap

/-- Related arrays share storage, or their elements are related one by one. -/
def Bisimulation (h : Heap) (R : Ref → Ref → Prop) : Prop :=
  ∀ r s, R r s → r = s ∨ List.Forall₂ (Value.Related R) (h.items r) (h.items s)

/-- Arrays that some bisimulation relates. -/
def Bisimilar (h : Heap) (r s : Ref) : Prop :=
  ∃ R, h.Bisimulation R ∧ R r s

end Heap

theorem Value.Related.mono {R S : Ref → Ref → Prop} (hRS : ∀ r s, R r s → S r s) {v w : Value}
    (h : v.Related R w) : v.Related S w := by
  induction h with
  | atom same => exact .atom same
  | array related => exact .array (hRS _ _ related)
  | map keys values ih => exact .map keys ih
  | error payload ih => exact .error ih

namespace Heap

variable {h : Heap} {assumed : List (Ref × Ref)} {v w : Value} {r s : Ref}

theorem bisimulation_bisimilar (h : Heap) : h.Bisimulation h.Bisimilar := by
  rintro r s ⟨R, hR, hrs⟩
  have hle (a b : Ref) (hab : R a b) : h.Bisimilar a b := ⟨R, hR, hab⟩
  exact (hR r s hrs).imp id fun hitems => hitems.imp fun _ _ hvw => hvw.mono hle

/-! ### What looking through finitely many arrays can tell -/

/-- Arrays that no path through at most so many arrays tells apart. -/
def AlikeTo (h : Heap) : Nat → Ref → Ref → Prop
  | 0, _, _ => True
  | n + 1, r, s => r = s ∨ List.Forall₂ (Value.Related (h.AlikeTo n)) (h.items r) (h.items s)

theorem AlikeTo.of_succ {n : Nat} (hrs : h.AlikeTo (n + 1) r s) : h.AlikeTo n r s := by
  induction n generalizing r s with
  | zero => trivial
  | succ n ih => exact hrs.imp id fun hitems => hitems.imp fun _ _ hvw => hvw.mono fun _ _ => ih

theorem related_forall_alikeTo (hvw : ∀ n, v.Related (h.AlikeTo n) w) :
    v.Related (fun r s => ∀ n, h.AlikeTo n r s) w := by
  induction v generalizing w with
  | atom a =>
    cases hvw 0 with
    | atom same => exact .atom same
  | array r =>
    cases hvw 0 with
    | array _ =>
      apply Value.Related.array
      intro n
      cases hvw n with
      | array related => exact related
  | map m ih =>
    cases hvw 0 with
    | map keys _ =>
      apply Value.Related.map keys
      intro k a b ha hb
      apply ih (k, a) (Dict.get?_eq_some_iff.1 ha)
      intro n
      cases hvw n with
      | map _ values => exact values k a b ha hb
  | error p ih =>
    cases hvw 0 with
    | error _ =>
      apply Value.Related.error
      apply ih
      intro n
      cases hvw n with
      | error payload => exact payload

theorem bisimulation_forall_alikeTo (h : Heap) :
    h.Bisimulation fun r s => ∀ n, h.AlikeTo n r s := by
  intro r s hrs
  by_cases heq : r = s
  · exact .inl heq
  · have hitems (n : Nat) := (hrs (n + 1)).resolve_left heq
    have hlen := (hitems 0).length_eq
    refine .inr (List.forall₂_iff_zip.2 ⟨hlen, ?_⟩)
    intro a b hab
    apply related_forall_alikeTo
    intro n
    exact (List.forall₂_iff_zip.1 (hitems n)).2 hab

/-! ### Equal values are related -/

theorem related_of_equalsUnder {R : Ref → Ref → Prop}
    (harrays : ∀ r s, h.equalsUnder assumed (.array r) (.array s) = true → R r s)
    (hvw : h.equalsUnder assumed v w = true) : v.Related R w := by
  induction v generalizing w with
  | atom a =>
    cases w with
    | atom b => exact .atom (Atom.equals_iff_same.1 (by simpa using hvw))
    | _ => simp [equalsUnder] at hvw
  | array r =>
    cases w with
    | array s => exact .array (harrays r s hvw)
    | _ => simp [equalsUnder] at hvw
  | map m ih =>
    cases w with
    | map n =>
      simp only [equalsUnder_map, Bool.and_eq_true, beq_iff_eq, List.all_eq_true] at hvw
      obtain ⟨hkeys, hvalues⟩ := hvw
      apply Value.Related.map (Dict.keys_eq_iff.1 hkeys)
      intro k a b ha hb
      have hzip := (Dict.mem_zip_values_iff hkeys).2 ⟨k, ha, hb⟩
      exact ih (k, a) (Dict.get?_eq_some_iff.1 ha) (hvalues (a, b) hzip)
    | _ => simp [equalsUnder] at hvw
  | error p ih =>
    cases w with
    | error q => exact .error (ih (by simpa using hvw))
    | _ => simp [equalsUnder] at hvw

/-- A comparison that succeeds under assumptions good to depth `n` is right to depth `n`. The pair
compared joins the assumptions of its elements, and by the hypothesis of the induction on `n` it is
itself good to the depth at which they are judged. -/
theorem alikeTo_of_equalsUnder (n : Nat) (hassumed : ∀ p ∈ assumed, h.AlikeTo n p.1 p.2)
    (hrs : h.equalsUnder assumed (.array r) (.array s) = true) : h.AlikeTo n r s := by
  induction n generalizing assumed r s with
  | zero => trivial
  | succ n ih =>
    have hweaker (p : Ref × Ref) (hp : p ∈ assumed) : h.AlikeTo n p.1 p.2 :=
      (hassumed p hp).of_succ
    have hself := ih hweaker hrs
    simp only [equalsUnder_array, Bool.or_eq_true, Bool.and_eq_true, beq_iff_eq,
      decide_eq_true_eq, List.all_eq_true] at hrs
    rcases hrs with (heq | hmem) | ⟨hlen, hitems⟩
    · exact .inl heq
    · exact hassumed (r, s) hmem
    · have hextended (p : Ref × Ref) (hp : p ∈ (r, s) :: assumed) : h.AlikeTo n p.1 p.2 := by
        rcases List.mem_cons.1 hp with rfl | hp
        · exact hself
        · exact hweaker p hp
      refine .inr (List.forall₂_iff_zip.2 ⟨hlen, ?_⟩)
      intro a b hab
      exact related_of_equalsUnder (fun _ _ => ih hextended) (hitems (a, b) hab)

theorem related_of_equals (hvw : h.equals v w = true) : v.Related h.Bisimilar w := by
  refine related_of_equalsUnder ?_ hvw
  intro r s hrs
  refine ⟨_, h.bisimulation_forall_alikeTo, ?_⟩
  intro n
  exact alikeTo_of_equalsUnder n (fun p hp => absurd hp List.not_mem_nil) hrs

/-! ### Related values are equal -/

theorem equalsUnder_of_related (assumed : List (Ref × Ref)) (v w : Value)
    (hvw : v.Related h.Bisimilar w) : h.equalsUnder assumed v w = true := by
  induction assumed, v, w using equalsUnder.induct h with
  | case1 assumed a b =>
    cases hvw with
    | atom same => simpa using Atom.equals_iff_same.2 same
  | case2 assumed s => simp [equalsUnder_array]
  | case3 assumed r s hne hmem => simp [equalsUnder_array, hmem]
  | case4 assumed r s hne hmem hlen =>
    cases hvw with
    | array related =>
      exact absurd ((h.bisimulation_bisimilar r s related).resolve_left hne).length_eq hlen
  | case5 assumed r s hne hmem hlen ih =>
    cases hvw with
    | array related =>
      have hitems := (h.bisimulation_bisimilar r s related).resolve_left hne
      rw [List.forall₂_iff_zip] at hitems
      simp only [equalsUnder_array, Bool.or_eq_true, Bool.and_eq_true, beq_iff_eq,
        decide_eq_true_eq, List.all_eq_true]
      exact .inr ⟨hitems.1, fun p hp => ih p.1 p.2 hp (hitems.2 hp)⟩
  | case6 assumed m n ih =>
    cases hvw with
    | map keys values =>
      have hkeys := Dict.keys_eq_iff.2 keys
      simp only [equalsUnder_map, Bool.and_eq_true, beq_iff_eq, List.all_eq_true]
      refine ⟨hkeys, ?_⟩
      intro p hp
      obtain ⟨k, ha, hb⟩ := (Dict.mem_zip_values_iff hkeys).1 hp
      exact ih p.1 p.2 hp (values k p.1 p.2 ha hb)
  | case7 assumed p q ih =>
    cases hvw with
    | error payload => simpa using ih payload
  | case8 assumed v w hatom harray hmap herror =>
    cases hvw with
    | atom same => exact (hatom _ _ rfl rfl).elim
    | array related => exact (harray _ _ rfl rfl).elim
    | map keys values => exact (hmap _ _ rfl rfl).elim
    | error payload => exact (herror _ _ rfl rfl).elim

theorem equals_iff_related : h.equals v w = true ↔ v.Related h.Bisimilar w :=
  ⟨related_of_equals, equalsUnder_of_related [] v w⟩

/-- Being bisimilar is the greatest bisimulation between the arrays of a heap, and two values are
equal if and only if it relates them. So a pair that is assumed to be equal while it is compared
never makes two values equal that differ somewhere. -/
theorem equals_decides_bisimilarity (h : Heap) :
    IsGreatest {R : Ref → Ref → Prop | h.Bisimulation R} h.Bisimilar ∧
      ∀ v w, h.equals v w = true ↔ v.Related h.Bisimilar w := by
  refine ⟨⟨h.bisimulation_bisimilar, ?_⟩, fun v w => equals_iff_related⟩
  intro R hR r s hrs
  exact ⟨R, hR, hrs⟩

end Heap

end ScriptHost
