import ScriptHost.Heap
/-!
# Equality of values

Values are equal when they have the same shape and equal atoms. An array is
equal to itself, and a pair of arrays that is being compared is taken to be
equal inside the comparison, so that cyclic arrays can be compared.
-/

namespace ScriptHost

/-- Whether two atoms are equal. A float that is NaN is not equal to itself, and callables are
equal when they come from one registration. -/
def Atom.equals : Atom → Atom → Bool
  | undefined, undefined => true
  | bool a, bool b => a == b
  | int a, int b => a == b
  | float a, float b => a == b
  | string a, string b => a == b
  | bytes a, bytes b => a == b
  | builtin a, builtin b => a == b
  | _, _ => false

namespace Heap

def pairs (h : Heap) : List (Ref × Ref) :=
  h.refs.flatMap fun r => h.refs.map fun s => (r, s)

@[simp] theorem mem_pairs {r s : Ref} {h : Heap} : (r, s) ∈ h.pairs ↔ r ∈ h ∧ s ∈ h := by
  simp [pairs]

/-- How many pairs of arrays of the heap are not assumed to be equal yet. A comparison that makes
no assumption twice can make only so many more. -/
def undecided (h : Heap) (assumed : List (Ref × Ref)) : Nat :=
  h.pairs.countP fun p => p ∉ assumed

theorem undecided_cons_lt {r s : Ref} {h : Heap} {assumed : List (Ref × Ref)} (hr : r ∈ h)
    (hs : s ∈ h) (hp : (r, s) ∉ assumed) :
    h.undecided ((r, s) :: assumed) < h.undecided assumed :=
  countP_not_mem_cons_lt (mem_pairs.2 ⟨hr, hs⟩) hp

/-- Whether two values are equal, where pairs of arrays in `assumed` are being compared already. -/
def equalsUnder (h : Heap) (assumed : List (Ref × Ref)) : Value → Value → Bool
  | .atom a, .atom b => a.equals b
  | .array r, .array s =>
    if r = s then true
    else if _hp : (r, s) ∈ assumed then true
    else if (h.items r).length ≠ (h.items s).length then false
    else ((h.items r).zip (h.items s)).attach.all fun ⟨(v, w), _⟩ =>
      equalsUnder h ((r, s) :: assumed) v w
  | .map m, .map n =>
    m.keys == n.keys && (m.values.zip n.values).attach.all fun ⟨(v, w), _⟩ =>
      equalsUnder h assumed v w
  | .error p, .error q => equalsUnder h assumed p q
  | _, _ => false
termination_by v => (h.undecided assumed, sizeOf v)
decreasing_by
  · next hv =>
    exact Prod.Lex.left _ _ (undecided_cons_lt (mem_of_mem_items (List.of_mem_zip hv).1)
      (mem_of_mem_items (List.of_mem_zip hv).2) _hp)
  · next hv =>
    exact Prod.Lex.right _ (Value.sizeOf_lt_map_of_mem_values (List.of_mem_zip hv).1)
  · exact Prod.Lex.right _ (Value.sizeOf_lt_error p)

variable {h : Heap} {assumed : List (Ref × Ref)}

@[simp] theorem equalsUnder_atom (a b : Atom) :
    h.equalsUnder assumed (.atom a) (.atom b) = a.equals b := by
  rw [equalsUnder]

theorem equalsUnder_array (r s : Ref) :
    h.equalsUnder assumed (.array r) (.array s) =
      (r == s || (r, s) ∈ assumed || (h.items r).length == (h.items s).length &&
        ((h.items r).zip (h.items s)).all fun p => h.equalsUnder ((r, s) :: assumed) p.1 p.2) := by
  rw [equalsUnder]
  split
  · next hrs => simp [hrs]
  · next hrs =>
    split
    · next hp => simp [hp]
    · next hp =>
      split
      · next hl => simp [hrs, hp, hl]
      · next hl =>
        rw [Bool.eq_iff_iff]
        simp only [ne_eq, Decidable.not_not] at hl
        simp [hrs, hp, hl, List.all_eq_true]

@[simp] theorem equalsUnder_map (m n : Dict Value) :
    h.equalsUnder assumed (.map m) (.map n) =
      (m.keys == n.keys &&
        (m.values.zip n.values).all fun p => h.equalsUnder assumed p.1 p.2) := by
  rw [equalsUnder, Bool.eq_iff_iff]
  simp [List.all_eq_true]

@[simp] theorem equalsUnder_error (p q : Value) :
    h.equalsUnder assumed (.error p) (.error q) = h.equalsUnder assumed p q := by
  rw [equalsUnder]

def equals (h : Heap) (v w : Value) : Bool :=
  h.equalsUnder [] v w

end Heap

end ScriptHost
