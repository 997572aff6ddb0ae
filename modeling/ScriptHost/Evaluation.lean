import ScriptHost.Display
import ScriptHost.Fault
/-!
# Results of binary operators

Integers wrap around, and an integer beside a float is taken as a float. A
text takes any value on its right side, whose display text it appends.
-/

namespace ScriptHost

/-- The result of an operator between two integers. Shifts by more than the width move every
bit out. -/
def Operator.integers (op : Operator) (x y : Int64) : Except Fault Value :=
  match op with
  | add => .ok (.int (x + y))
  | sub => .ok (.int (x - y))
  | mul => .ok (.int (x * y))
  | quo => if y = 0 then .error .divisionByZero else .ok (.int (x / y))
  | rem => if y = 0 then .error .divisionByZero else .ok (.int (x % y))
  | and => .ok (.int (x &&& y))
  | or => .ok (.int (x ||| y))
  | xor => .ok (.int (x ^^^ y))
  | andNot => .ok (.int (x &&& ~~~y))
  | shl =>
    if y < 0 then .error (.invalidShift y)
    else .ok (.int (if y < 64 then x <<< y else 0))
  | shr =>
    if y < 0 then .error (.invalidShift y)
    else .ok (.int (if y < 64 then x >>> y else if x < 0 then -1 else 0))
  | compare c => .ok (.bool (c.holds (Ord.compare x y)))

/-- How two floats are ordered. A NaN has no place in the order. -/
def floatOrder? (x y : Float) : Option Ordering :=
  if x < y then some .lt else if x == y then some .eq else if x > y then some .gt else none

/-- The result of an operator between two floats. A comparison with NaN fails. -/
def Operator.floats? (op : Operator) (x y : Float) : Option Value :=
  match op with
  | add => some (.float (x + y))
  | sub => some (.float (x - y))
  | mul => some (.float (x * y))
  | quo => some (.float (x / y))
  | compare c => some (.bool ((floatOrder? x y).any c.holds))
  | _ => none

/-- The result of an operator between two texts. Texts are ordered like their bytes. -/
def Operator.texts? (op : Operator) (s t : String) : Option Value :=
  match op with
  | add => some (.string (s ++ t))
  | compare c => some (.bool (c.holds (Ord.compare s t)))
  | _ => none

def floatOfInt (n : Int64) : Float :=
  Float.ofInt n.toInt

namespace Heap

/-- The result of an operator between two values, with the heap afterwards: the sum of two arrays
is a new array. -/
def apply (h : Heap) (op : Operator) (lhs rhs : Value) : Except Fault (Value × Heap) :=
  let unsupported : Fault := .invalidOperator op lhs.kind rhs.kind
  let keep (v? : Option Value) : Except Fault (Value × Heap) :=
    match v? with
    | some v => .ok (v, h)
    | none => .error unsupported
  match lhs, rhs with
  | .int x, .int y => (op.integers x y).map (·, h)
  | .int x, .float y => keep (op.floats? (floatOfInt x) y)
  | .float x, .float y => keep (op.floats? x y)
  | .float x, .int y => keep (op.floats? x (floatOfInt y))
  | .string s, .string t => keep (op.texts? s t)
  | .string s, v => if op = .add then .ok (.string (s ++ h.display v), h) else .error unsupported
  | .bytes a, .bytes b => if op = .add then .ok (.bytes (a ++ b), h) else .error unsupported
  | .array r, .array s =>
    if op = .add then
      let (t, h) := h.alloc (h.items r ++ h.items s)
      .ok (.array t, h)
    else .error unsupported
  | _, _ => .error unsupported

end Heap

/-! ### What a result can be -/

namespace Operator

variable {op : Operator} {x : Value}

theorem integers_eq_ok {m n : Int64} (hx : op.integers m n = .ok x) :
    ∃ a, x = .atom a ∧ ∀ y, a ≠ .float y := by
  cases op <;> simp only [integers] at hx
  all_goals first
    | cases hx
      exact ⟨_, rfl, nofun⟩
    | split at hx <;> cases hx
      exact ⟨_, rfl, nofun⟩

theorem floats?_eq_some {y z : Float} (hx : op.floats? y z = some x) : ∃ a, x = .atom a := by
  cases op <;> cases hx <;> exact ⟨_, rfl⟩

theorem texts?_eq_some {s t : String} (hx : op.texts? s t = some x) :
    ∃ a, x = .atom a ∧ ∀ y, a ≠ .float y := by
  cases op <;> cases hx <;> exact ⟨_, rfl, nofun⟩

end Operator

namespace Heap

variable {h h' : Heap} {op : Operator} {v w x : Value}

theorem apply_add_arrays (h : Heap) (r s : Ref) :
    h.apply .add (.array r) (.array s) = .ok (.array (h.alloc (h.items r ++ h.items s)).1,
      (h.alloc (h.items r ++ h.items s)).2) := by
  simp [apply]

/-- A new array is made for the sum of two arrays. Any other result is an atom, and a float only
if an operand is one. -/
theorem apply_eq_ok (happly : h.apply op v w = .ok (x, h')) :
    (∃ r s, v = .array r ∧ w = .array s ∧ op = .add ∧
      (x, h') = (.array (h.alloc (h.items r ++ h.items s)).1,
        (h.alloc (h.items r ++ h.items s)).2)) ∨
    h' = h ∧ ∃ a, x = .atom a ∧ ∀ y, a = .float y → ∃ z, v = .float z ∨ w = .float z := by
  simp only [apply] at happly
  split at happly
  case h_1 m n =>
    cases hx : op.integers m n with
    | error e => simp [hx, Except.map] at happly
    | ok x =>
      simp only [hx, Except.map] at happly
      cases happly
      obtain ⟨a, ha, hfloat⟩ := Operator.integers_eq_ok hx
      exact .inr ⟨rfl, a, ha, fun y hy => absurd hy (hfloat y)⟩
  case h_5 s t =>
    split at happly
    · next hx =>
      cases happly
      obtain ⟨a, ha, hfloat⟩ := Operator.texts?_eq_some hx
      exact .inr ⟨rfl, a, ha, fun y hy => absurd hy (hfloat y)⟩
    · cases happly
  case h_2 m y | h_3 y z | h_4 y m =>
    split at happly
    · next hx =>
      cases happly
      obtain ⟨a, ha⟩ := Operator.floats?_eq_some hx
      exact .inr ⟨rfl, a, ha, fun _ _ => by simp⟩
    · cases happly
  case h_6 s _ | h_7 a b =>
    split at happly <;> cases happly
    exact .inr ⟨rfl, _, rfl, nofun⟩
  case h_8 r s =>
    split at happly
    · next hop =>
      cases happly
      exact .inl ⟨r, s, rfl, rfl, hop, rfl⟩
    · cases happly
  case h_9 => cases happly

end Heap

end ScriptHost
