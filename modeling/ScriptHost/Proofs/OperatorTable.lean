import ScriptHost.Evaluation
import ScriptHost.Proofs.NativeValues
/-!
# The table of operators

The rows of the table say between which kinds an operator is defined and of
which kind its results are. An operator has a result if and only if it is
defined between the kinds of its operands, does not divide an integer by zero
and does not shift one by a negative count. Otherwise the fault says what is
wrong.
-/

namespace ScriptHost

/-- The kinds of two numbers that are not both integers. -/
def Kind.floating : List (Kind × Kind) :=
  [(int, float), (float, int), (float, float)]

namespace Operator

/-- The operator is defined between the first two kinds, and its results are of the third. -/
inductive Defined : Operator → Kind → Kind → Kind → Prop where
  | integers {op : Operator} (hop : op.isComparison = false) : Defined op .int .int .int
  | integerOrder (c : Comparison) : Defined (compare c) .int .int .bool
  | numbers {op : Operator} {k l : Kind} (hop : op ∈ [add, sub, mul, quo])
      (hkl : (k, l) ∈ Kind.floating) : Defined op k l .float
  | numberOrder (c : Comparison) {k l : Kind} (hkl : (k, l) ∈ Kind.floating) :
      Defined (compare c) k l .bool
  | text (k : Kind) : Defined add .string k .string
  | textOrder (c : Comparison) : Defined (compare c) .string .string .bool
  | bytes : Defined add .bytes .bytes .bytes
  | arrays : Defined add .array .array .array

/-- Why an operator has no result. -/
inductive Fails (op : Operator) : Value → Value → Fault → Prop where
  | divisionByZero (hop : op = quo ∨ op = rem) (x : Int64) :
    Fails op (.int x) (.int 0) .divisionByZero
  | invalidShift (hop : op = shl ∨ op = shr) (x : Int64) {y : Int64} (hy : y < 0) :
    Fails op (.int x) (.int y) (.invalidShift y)
  | invalidOperator {v w : Value} (hundefined : ∀ k, ¬ op.Defined v.kind w.kind k) :
    Fails op v w (.invalidOperator op v.kind w.kind)

variable {op : Operator} {k l m m' : Kind} {v w x : Value} {e e' : Fault}

theorem Defined.kind_eq (hm : op.Defined k l m) (hm' : op.Defined k l m') : m = m' := by
  cases hm <;> cases hm' <;> simp_all [isComparison, Kind.floating]

theorem Fails.fault_eq (he : op.Fails v w e) (he' : op.Fails v w e') : e = e' := by
  cases he with
  | divisionByZero hop x =>
    cases he' with
    | divisionByZero => rfl
    | invalidShift hop' _ hy => exact absurd hy (by decide)
    | invalidOperator hundefined =>
      rcases hop with rfl | rfl <;> exact absurd (.integers rfl) (hundefined .int)
  | invalidShift hop x hy =>
    cases he' with
    | divisionByZero => exact absurd hy (by decide)
    | invalidShift => rfl
    | invalidOperator hundefined =>
      rcases hop with rfl | rfl <;> exact absurd (.integers rfl) (hundefined .int)
  | invalidOperator hundefined =>
    cases he' with
    | divisionByZero hop | invalidShift hop =>
      rcases hop with rfl | rfl <;> exact absurd (.integers rfl) (hundefined .int)
    | invalidOperator => rfl

/-! ### The rows, one after the other -/

/-- The pairs of kinds that have a row, and the operators of the rows that are not about numbers. -/
theorem Defined.operands (hm : op.Defined k l m) :
    (k, l) = (.int, .int) ∨ (k, l) ∈ Kind.floating ∨ k = .string ∧ (op = add ∨ l = .string) ∨
      op = add ∧ ((k, l) = (.bytes, .bytes) ∨ (k, l) = (.array, .array)) := by
  cases hm with
  | integers | integerOrder => exact .inl rfl
  | numbers _ hkl | numberOrder _ hkl => exact .inr (.inl hkl)
  | text => exact .inr (.inr (.inl ⟨rfl, .inl rfl⟩))
  | textOrder => exact .inr (.inr (.inl ⟨rfl, .inr rfl⟩))
  | bytes => exact .inr (.inr (.inr ⟨rfl, .inl rfl⟩))
  | arrays => exact .inr (.inr (.inr ⟨rfl, .inr rfl⟩))

theorem defined_of_integers {m n : Int64} (hx : op.integers m n = .ok x) :
    op.Defined .int .int x.kind := by
  cases op with
  | compare c =>
    cases hx
    exact .integerOrder c
  | quo | rem | shl | shr =>
    simp only [integers] at hx
    split at hx <;> cases hx
    exact .integers rfl
  | _ =>
    cases hx
    exact .integers rfl

theorem fails_of_integers {m n : Int64} (he : op.integers m n = .error e) :
    op.Fails (.int m) (.int n) e := by
  cases op with
  | quo | rem =>
    simp only [integers] at he
    split at he <;> cases he
    next hn => exact hn ▸ .divisionByZero (by simp) m
  | shl | shr =>
    simp only [integers] at he
    split at he <;> cases he
    next hn => exact .invalidShift (by simp) m hn
  | _ => cases he

theorem defined_of_floats? {y z : Float} (hx : op.floats? y z = some x)
    (hkl : (k, l) ∈ Kind.floating) :
    op.Defined k l x.kind := by
  cases op with
  | compare c =>
    cases hx
    exact .numberOrder c hkl
  | add | sub | mul | quo =>
    cases hx
    exact .numbers (by decide) hkl
  | _ => cases hx

theorem not_defined_of_floats? {y z : Float} (hnone : op.floats? y z = none)
    (hkl : (k, l) ∈ Kind.floating) :
    ¬ op.Defined k l m := by
  intro hm
  cases hm with
  | numbers hop _ =>
    simp only [List.mem_cons, List.not_mem_nil, or_false] at hop
    rcases hop with rfl | rfl | rfl | rfl <;> cases hnone
  | numberOrder c _ => cases hnone
  | _ => simp [Kind.floating] at hkl

theorem defined_of_texts? {s t : String} (hx : op.texts? s t = some x) :
    op.Defined .string .string x.kind := by
  cases op with
  | compare c =>
    cases hx
    exact .textOrder c
  | add =>
    cases hx
    exact .text .string
  | _ => cases hx

theorem not_defined_of_texts? {s t : String} (hnone : op.texts? s t = none) :
    ¬ op.Defined .string .string m := by
  intro hm
  cases hm with
  | text => cases hnone
  | textOrder c => cases hnone
  | numbers _ hkl | numberOrder _ hkl => simp [Kind.floating] at hkl

/-! ### Instructions that trap -/

/-- An instruction whose result is the given one, if its operands are admissible. -/
def instruction? (admissible : Prop) [Decidable admissible] (z : Int64) : Option Int64 :=
  if admissible then some z else none

/-- The operator between two integers by instructions of which a division traps on zero, and a
shift on a count outside the width. -/
def trapping? (op : Operator) (m n : Int64) : Option (Except Fault Value) :=
  let result (z? : Option Int64) : Option (Except Fault Value) := z?.map fun z => .ok (.int z)
  match op with
  | quo =>
    if n = 0 then some (.error .divisionByZero)
    else result (instruction? (n ≠ 0) (m / n))
  | rem =>
    if n = 0 then some (.error .divisionByZero)
    else result (instruction? (n ≠ 0) (m % n))
  | shl =>
    if n < 0 then some (.error (.invalidShift n))
    else if n < 64 then result (instruction? (0 ≤ n ∧ n < 64) (m <<< n))
    else some (.ok (.int 0))
  | shr =>
    if n < 0 then some (.error (.invalidShift n))
    else if n < 64 then result (instruction? (0 ≤ n ∧ n < 64) (m >>> n))
    else some (.ok (.int (if m < 0 then -1 else 0)))
  | op => some (op.integers m n)

theorem trapping?_eq_some (op : Operator) (m n : Int64) :
    op.trapping? m n = some (op.integers m n) := by
  cases op with
  | quo | rem => by_cases hn : n = 0 <;> simp [trapping?, integers, instruction?, hn]
  | shl | shr =>
    by_cases hneg : n < 0
    · simp [trapping?, integers, hneg]
    · have hn : 0 ≤ n := Int64.not_lt.1 hneg
      by_cases hwidth : n < 64 <;> simp [trapping?, integers, instruction?, hneg, hn, hwidth]
  | _ => rfl

end Operator

namespace Value

variable {v : Value}

theorem kind_eq_int_iff : v.kind = .int ↔ ∃ n, v = .int n := by
  rcases v with ⟨⟨⟩⟩ | _ | _ | _ <;> simp [kind, Atom.kind]

theorem kind_eq_float_iff : v.kind = .float ↔ ∃ x, v = .float x := by
  rcases v with ⟨⟨⟩⟩ | _ | _ | _ <;> simp [kind, Atom.kind]

theorem kind_eq_string_iff : v.kind = .string ↔ ∃ s, v = .string s := by
  rcases v with ⟨⟨⟩⟩ | _ | _ | _ <;> simp [kind, Atom.kind]

theorem kind_eq_bytes_iff : v.kind = .bytes ↔ ∃ b, v = .bytes b := by
  rcases v with ⟨⟨⟩⟩ | _ | _ | _ <;> simp [kind, Atom.kind]

theorem kind_eq_array_iff : v.kind = .array ↔ ∃ r, v = .array r := by
  rcases v with ⟨⟨⟩⟩ | _ | _ | _ <;> simp [kind, Atom.kind]

end Value

namespace Heap

open Operator

variable {h h' : Heap} {op : Operator} {v w x : Value} {e : Fault}

theorem defined_of_apply (happly : h.apply op v w = .ok (x, h')) :
    op.Defined v.kind w.kind x.kind := by
  simp only [apply] at happly
  split at happly
  case h_1 m n =>
    cases hx : op.integers m n with
    | error e => simp [hx, Except.map] at happly
    | ok y =>
      rw [hx] at happly
      cases happly
      exact defined_of_integers hx
  case h_2 | h_3 | h_4 =>
    split at happly
    · next hx =>
      cases happly
      exact defined_of_floats? hx (by simp [Kind.floating, Value.kind, Atom.kind])
    · cases happly
  case h_5 =>
    split at happly
    · next hx =>
      cases happly
      exact defined_of_texts? hx
    · cases happly
  case h_6 =>
    split at happly
    · next hop =>
      cases happly
      exact hop ▸ .text _
    · cases happly
  case h_7 =>
    split at happly
    · next hop =>
      cases happly
      exact hop ▸ .bytes
    · cases happly
  case h_8 =>
    split at happly
    · next hop =>
      cases happly
      exact hop ▸ .arrays
    · cases happly
  case h_9 => cases happly

theorem fails_of_apply (happly : h.apply op v w = .error e) : op.Fails v w e := by
  simp only [apply] at happly
  split at happly
  case h_1 m n =>
    cases hx : op.integers m n with
    | error e' =>
      rw [hx] at happly
      cases happly
      exact fails_of_integers hx
    | ok y => simp [hx, Except.map] at happly
  case h_2 | h_3 | h_4 =>
    split at happly
    · cases happly
    · next hx =>
      cases happly
      exact .invalidOperator fun k =>
        not_defined_of_floats? hx (by simp [Kind.floating, Value.kind, Atom.kind])
  case h_5 =>
    split at happly
    · cases happly
    · next hx =>
      cases happly
      exact .invalidOperator fun k => not_defined_of_texts? hx
  case h_6 s hw =>
    split at happly
    · cases happly
    · next hop =>
      cases happly
      refine .invalidOperator fun k hk => ?_
      have hkinds : w.kind = .string := by
        simpa [Kind.floating, Value.kind, Atom.kind, hop] using hk.operands
      obtain ⟨t, rfl⟩ := Value.kind_eq_string_iff.1 hkinds
      exact hw t rfl
  case h_7 | h_8 =>
    split at happly
    · cases happly
    · next hop =>
      cases happly
      refine .invalidOperator fun k hk => ?_
      have hkinds := hk.operands
      simp [Kind.floating, Value.kind, Atom.kind, hop] at hkinds
  case h_9 =>
    cases happly
    refine .invalidOperator fun k hk => ?_
    have hkinds := hk.operands
    simp only [Kind.floating, List.mem_cons, Prod.mk.injEq, List.not_mem_nil, or_false,
      Value.kind_eq_int_iff, Value.kind_eq_float_iff, Value.kind_eq_string_iff,
      Value.kind_eq_bytes_iff, Value.kind_eq_array_iff] at hkinds
    grind

theorem not_fails_of_apply (happly : h.apply op v w = .ok (x, h')) : ¬ op.Fails v w e := by
  intro he
  cases he with
  | divisionByZero hop m =>
    rcases hop with rfl | rfl <;> simp [apply, integers, Except.map] at happly
  | invalidShift hop m hn =>
    rcases hop with rfl | rfl <;> simp [apply, integers, Except.map, hn] at happly
  | invalidOperator hundefined => exact hundefined _ (defined_of_apply happly)

/-- The heap is changed for the sum of two arrays only, which is a new array. -/
theorem makes_of_apply (happly : h.apply op v w = .ok (x, h')) :
    h.Makes h' [x] ∧ (x.kind ≠ .array → h' = h) ∧
      ∀ t, x = .array t →
        ∃ r s, v = .array r ∧ w = .array s ∧ h'.items t = h.items r ++ h.items s := by
  obtain ⟨r, s, rfl, rfl, -, hmade⟩ | ⟨rfl, a, rfl, -⟩ := apply_eq_ok happly
  · cases hmade
    refine ⟨makes_alloc h _, fun hkind => absurd rfl hkind, fun t ht => ?_⟩
    cases ht
    exact ⟨r, s, rfl, rfl, items_alloc_self h _⟩
  · exact ⟨.refl (by simp), fun _ => rfl, nofun⟩

theorem apply_eq_error_iff : h.apply op v w = .error e ↔ op.Fails v w e := by
  refine ⟨fails_of_apply, fun he => ?_⟩
  cases happly : h.apply op v w with
  | ok result => exact absurd he (not_fails_of_apply happly)
  | error e' => rw [he.fault_eq (fails_of_apply happly)]

theorem exists_apply_eq_ok_iff {k : Kind} :
    (∃ x h', h.apply op v w = .ok (x, h') ∧ x.kind = k) ↔
      op.Defined v.kind w.kind k ∧ ∀ e, ¬ op.Fails v w e := by
  constructor
  · rintro ⟨x, h', happly, rfl⟩
    exact ⟨defined_of_apply happly, fun _ => not_fails_of_apply happly⟩
  · rintro ⟨hk, hnot⟩
    cases happly : h.apply op v w with
    | error e => exact absurd (fails_of_apply happly) (hnot e)
    | ok result => exact ⟨_, _, rfl, (defined_of_apply happly).kind_eq hk⟩

/-- An operator fails exactly as `Operator.Fails` says. Otherwise it has a result, of the kind that
the table gives it, and makes no array but the sum of two. No instruction is ever reached that
would trap. -/
theorem apply_follows_table (h : Heap) (op : Operator) (v w : Value) :
    (∀ e, h.apply op v w = .error e ↔ op.Fails v w e) ∧
      (∀ k, (∃ x h', h.apply op v w = .ok (x, h') ∧ x.kind = k) ↔
        op.Defined v.kind w.kind k ∧ ∀ e, ¬ op.Fails v w e) ∧
      (∀ x h', h.apply op v w = .ok (x, h') →
        h.Makes h' [x] ∧ (x.kind ≠ .array → h' = h) ∧
          ∀ t, x = .array t →
            ∃ r s, v = .array r ∧ w = .array s ∧ h'.items t = h.items r ++ h.items s) ∧
      ∀ x y, op.trapping? x y = some (op.integers x y) :=
  ⟨fun _ => apply_eq_error_iff, fun _ => exists_apply_eq_ok_iff, fun _ _ => makes_of_apply,
    op.trapping?_eq_some⟩

end Heap

end ScriptHost
