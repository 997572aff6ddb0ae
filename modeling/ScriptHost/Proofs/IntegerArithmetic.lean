import Mathlib.Algebra.Order.Ring.Int
import ScriptHost.Evaluation
/-!
# Arithmetic of integers

The integers of scripts are the residues modulo `2 ^ 64`, read as the signed
numbers of 64 bits. Sums, differences, products and left shifts are exact
modulo `2 ^ 64`. Quotients are truncated, and right shifts are rounded down.
Counts of 64 and more shift as shorter ones do, so two shifts in a row are one
shift by both counts.
-/

namespace ScriptHost

namespace Operator

/-- The operator between the first two integers has the third as its result. -/
def Gives (op : Operator) (x y z : Int64) : Prop :=
  ∀ h : Heap, h.apply op (.int x) (.int y) = .ok (.int z, h)

/-- The operator between the two integers has the number as its result. -/
def Computes (op : Operator) (x y : Int64) (n : Int) : Prop :=
  ∃ z, op.Gives x y z ∧ z.toInt = n

/-- The operator finds each bit of its result from the two bits in the same position. -/
def ActsOnBits (op : Operator) (f : Bool → Bool → Bool) (x y : Int64) : Prop :=
  ∃ z, op.Gives x y z ∧
    ∀ i < 64, z.toBitVec.getLsbD i = f (x.toBitVec.getLsbD i) (y.toBitVec.getLsbD i)

variable {op : Operator} {x y z a b : Int64}

theorem gives_of_integers (hz : op.integers x y = .ok (.int z)) : op.Gives x y z := by
  intro h
  simp only [Heap.apply, hz, Except.map]

theorem add_gives (x y : Int64) : add.Gives x y (x + y) :=
  gives_of_integers rfl

theorem mul_gives (x y : Int64) : mul.Gives x y (x * y) :=
  gives_of_integers rfl

theorem quo_gives (x : Int64) (hy : y ≠ 0) : quo.Gives x y (x / y) :=
  gives_of_integers (if_neg hy)

theorem rem_gives (x : Int64) (hy : y ≠ 0) : rem.Gives x y (x % y) :=
  gives_of_integers (if_neg hy)

/-! ### Modulo `2 ^ 64` -/

theorem add_computes (x y : Int64) : add.Computes x y ((x.toInt + y.toInt).bmod (2 ^ 64)) :=
  ⟨x + y, add_gives x y, Int64.toInt_add x y⟩

theorem sub_computes (x y : Int64) : sub.Computes x y ((x.toInt - y.toInt).bmod (2 ^ 64)) :=
  ⟨x - y, gives_of_integers rfl, Int64.toInt_sub x y⟩

theorem mul_computes (x y : Int64) : mul.Computes x y ((x.toInt * y.toInt).bmod (2 ^ 64)) :=
  ⟨x * y, mul_gives x y, Int64.toInt_mul x y⟩

/-! ### Division -/

theorem quo_computes (x : Int64) (hy : y ≠ 0) :
    quo.Computes x y ((x.toInt.tdiv y.toInt).bmod (2 ^ 64)) :=
  ⟨x / y, quo_gives x hy, Int64.toInt_div x y⟩

theorem rem_computes (x : Int64) (hy : y ≠ 0) : rem.Computes x y (x.toInt.tmod y.toInt) :=
  ⟨x % y, rem_gives x hy, Int64.toInt_mod x y⟩

theorem toInt_ne_zero (hy : y ≠ 0) : y.toInt ≠ 0 :=
  fun h => hy (Int64.toInt_inj.1 h)

/-- The remainder makes up for the rounding of the quotient, also where the quotient wraps. -/
theorem quo_mul_add_rem (x y : Int64) : x / y * y + x % y = x := by
  apply Int64.toInt_inj.1
  calc (x / y * y + x % y).toInt
      = (((x.toInt.tdiv y.toInt).bmod (2 ^ 64) * y.toInt).bmod (2 ^ 64) +
          x.toInt.tmod y.toInt).bmod (2 ^ 64) := by
        rw [Int64.toInt_add, Int64.toInt_mul, Int64.toInt_div, Int64.toInt_mod]
    _ = (y.toInt * x.toInt.tdiv y.toInt + x.toInt.tmod y.toInt).bmod (2 ^ 64) := by
        rw [Int.bmod_mul_bmod, Int.bmod_add_bmod, Int.mul_comm]
    _ = x.toInt.bmod (2 ^ 64) := by rw [Int.mul_tdiv_add_tmod]
    _ = x.toInt := Int64.toInt_bmod x

theorem natAbs_tmod_lt (x : Int) {y : Int} (hy : y ≠ 0) : (x.tmod y).natAbs < y.natAbs := by
  rw [Int.natAbs_tmod]
  exact Nat.mod_lt _ (Int.natAbs_pos.2 hy)

theorem tmod_eq_zero_or_sign_eq (x y : Int) : x.tmod y = 0 ∨ (x.tmod y).sign = x.sign := by
  rw [Int.sign_tmod]
  by_cases hdvd : y ∣ x
  · exact .inl (Int.tmod_eq_zero_of_dvd hdvd)
  · exact .inr (if_neg hdvd)

/-- The quotient and the remainder make up the dividend. The remainder is smaller than the divisor
and has the sign of the dividend. -/
theorem quo_rem_give (x : Int64) (hy : y ≠ 0) :
    ∃ q r p, quo.Gives x y q ∧ rem.Gives x y r ∧ mul.Gives q y p ∧ add.Gives p r x ∧
      r.toInt.natAbs < y.toInt.natAbs ∧ (r = 0 ∨ r.toInt.sign = x.toInt.sign) := by
  refine ⟨x / y, x % y, x / y * y, quo_gives x hy, rem_gives x hy, mul_gives _ y, ?_, ?_, ?_⟩
  · have hsum := add_gives (x / y * y) (x % y)
    rwa [quo_mul_add_rem] at hsum
  · rw [Int64.toInt_mod]
    exact natAbs_tmod_lt x.toInt (toInt_ne_zero hy)
  · rw [Int64.toInt_mod, ← Int64.toInt_inj, Int64.toInt_mod]
    exact tmod_eq_zero_or_sign_eq x.toInt y.toInt

/-! ### Shifts -/

theorem nonneg_iff : 0 ≤ y ↔ 0 ≤ y.toInt :=
  Int64.le_iff_toInt_le

theorem neg_iff : x < 0 ↔ x.toInt < 0 :=
  Int64.lt_iff_toInt_lt

theorem lt_width_iff : y < 64 ↔ y.toInt < 64 :=
  Int64.lt_iff_toInt_lt

/-- The hardware shifts by the residue of a count modulo the width. -/
theorem toNat_smod_width (hy : 0 ≤ y) (hwidth : y < 64) :
    (y.toBitVec.smod 64).toNat = y.toInt.toNat := by
  have hnonneg := nonneg_iff.1 hy
  have hint : (y.toBitVec.smod 64).toInt = y.toInt := by
    rw [BitVec.toInt_smod, Int64.toInt_toBitVec]
    exact Int.fmod_eq_of_lt hnonneg (lt_width_iff.1 hwidth)
  have hcond := BitVec.toInt_eq_toNat_cond (y.toBitVec.smod 64)
  split at hcond <;> omega

theorem toBitVec_shl (x : Int64) (hy : 0 ≤ y) :
    (if y < 64 then x <<< y else 0).toBitVec = x.toBitVec <<< y.toInt.toNat := by
  by_cases hwidth : y < 64
  · rw [if_pos hwidth, Int64.toBitVec_shiftLeft, BitVec.shiftLeft_eq', toNat_smod_width hy hwidth]
  · have hle := mt lt_width_iff.2 hwidth
    rw [if_neg hwidth, BitVec.shiftLeft_eq_zero (by omega)]
    rfl

/-- With `64` bits or more moved out of a number, what remains is its sign. -/
theorem ediv_two_pow_of_width_le (x : Int64) {n : Nat} (hn : 64 ≤ n) :
    x.toInt / 2 ^ n = if x < 0 then -1 else 0 := by
  have hlow := x.le_toInt
  have hhigh := x.toInt_lt
  have hpow : (2 : Int) ^ 64 ≤ 2 ^ n := pow_le_pow_right₀ (by decide) hn
  by_cases hneg : x < 0
  · rw [if_pos hneg]
    exact Int.ediv_eq_neg_one_of_neg_of_le (neg_iff.1 hneg) (by omega)
  · rw [if_neg hneg]
    exact Int.ediv_eq_zero_of_lt (Int.not_lt.1 (mt neg_iff.2 hneg)) (by omega)

theorem toBitVec_shr (x : Int64) (hy : 0 ≤ y) :
    (if y < 64 then x >>> y else if x < 0 then -1 else 0).toBitVec =
      x.toBitVec.sshiftRight y.toInt.toNat := by
  by_cases hwidth : y < 64
  · rw [if_pos hwidth, Int64.toBitVec_shiftRight, BitVec.sshiftRight_eq',
      toNat_smod_width hy hwidth]
  · have hle := mt lt_width_iff.2 hwidth
    apply BitVec.toInt_inj.1
    rw [if_neg hwidth, BitVec.toInt_sshiftRight, Int.shiftRight_eq_div_pow, Nat.cast_pow,
      Int64.toInt_toBitVec, Int64.toInt_toBitVec, Nat.cast_ofNat,
      ediv_two_pow_of_width_le x (by omega)]
    split <;> rfl

theorem shl_gives (x : Int64) (hy : 0 ≤ y) :
    shl.Gives x y (Int64.ofBitVec (x.toBitVec <<< y.toInt.toNat)) := by
  apply gives_of_integers
  rw [← toBitVec_shl x hy]
  exact if_neg (Int64.not_lt.2 hy)

theorem shr_gives (x : Int64) (hy : 0 ≤ y) :
    shr.Gives x y (Int64.ofBitVec (x.toBitVec.sshiftRight y.toInt.toNat)) := by
  apply gives_of_integers
  rw [← toBitVec_shr x hy]
  exact if_neg (Int64.not_lt.2 hy)

theorem shl_computes (x : Int64) (hy : 0 ≤ y) :
    shl.Computes x y ((x.toInt * 2 ^ y.toInt.toNat).bmod (2 ^ 64)) := by
  refine ⟨_, shl_gives x hy, ?_⟩
  rw [← Int64.toInt_toBitVec x, BitVec.toInt_eq_toNat_bmod, Int.bmod_mul_bmod]
  rw [← Int64.toInt_toBitVec, Int64.toBitVec_ofBitVec, BitVec.toInt_shiftLeft, Nat.shiftLeft_eq]
  norm_cast

theorem shr_computes (x : Int64) (hy : 0 ≤ y) :
    shr.Computes x y (x.toInt / 2 ^ y.toInt.toNat) := by
  refine ⟨_, shr_gives x hy, ?_⟩
  rw [← Int64.toInt_toBitVec, Int64.toBitVec_ofBitVec, BitVec.toInt_sshiftRight,
    Int.shiftRight_eq_div_pow, Int64.toInt_toBitVec, Nat.cast_pow, Nat.cast_ofNat]

theorem toInt_add_of_lt (ha : 0 ≤ a) (hb : 0 ≤ b) (hab : a.toInt + b.toInt < 2 ^ 63) :
    (a + b).toInt = a.toInt + b.toInt := by
  have := nonneg_iff.1 ha
  have := nonneg_iff.1 hb
  rw [Int64.toInt_add]
  exact Int.bmod_eq_of_le (by omega) (by omega)

theorem shifts_compose (x : Int64) (ha : 0 ≤ a) (hb : 0 ≤ b)
    (hab : a.toInt + b.toInt < 2 ^ 63) (hop : op = shl ∨ op = shr) :
    ∃ y z, op.Gives x a y ∧ op.Gives y b z ∧ op.Gives x (a + b) z := by
  have := nonneg_iff.1 ha
  have := nonneg_iff.1 hb
  have hsum := toInt_add_of_lt ha hb hab
  have hcount : (a + b).toInt.toNat = a.toInt.toNat + b.toInt.toNat := by omega
  have hnonneg : 0 ≤ a + b := nonneg_iff.2 (by omega)
  -- The bits move by any count, so it does not matter which of the counts reach the width.
  rcases hop with rfl | rfl
  · refine ⟨_, _, shl_gives x ha, shl_gives _ hb, ?_⟩
    rw [Int64.toBitVec_ofBitVec, ← BitVec.shiftLeft_add, ← hcount]
    exact shl_gives x hnonneg
  · refine ⟨_, _, shr_gives x ha, shr_gives _ hb, ?_⟩
    rw [Int64.toBitVec_ofBitVec, ← BitVec.sshiftRight_add, ← hcount]
    exact shr_gives x hnonneg

/-! ### Bits -/

theorem and_gives (x y : Int64) : and.Gives x y (x &&& y) :=
  gives_of_integers rfl

theorem or_gives (x y : Int64) : or.Gives x y (x ||| y) :=
  gives_of_integers rfl

theorem xor_gives (x y : Int64) : xor.Gives x y (x ^^^ y) :=
  gives_of_integers rfl

theorem andNot_gives (x y : Int64) : andNot.Gives x y (x &&& ~~~y) :=
  gives_of_integers rfl

theorem and_or_andNot (x y : Int64) : x &&& y ||| x &&& ~~~y = x := by
  apply Int64.toBitVec_inj.1
  ext i hi
  cases hx : x.toBitVec[i] <;> cases hy : y.toBitVec[i] <;> simp [hx, hy]

theorem or_andNot_and (x y : Int64) : (x ||| y) &&& ~~~(x &&& y) = x ^^^ y := by
  apply Int64.toBitVec_inj.1
  ext i hi
  cases hx : x.toBitVec[i] <;> cases hy : y.toBitVec[i] <;> simp [hx, hy]

theorem and_or_andNot_give (x y : Int64) :
    ∃ m n, and.Gives x y m ∧ andNot.Gives x y n ∧ or.Gives m n x := by
  refine ⟨x &&& y, x &&& ~~~y, and_gives x y, andNot_gives x y, ?_⟩
  have hor := or_gives (x &&& y) (x &&& ~~~y)
  rwa [and_or_andNot] at hor

theorem or_andNot_and_give (x y : Int64) :
    ∃ m n z, or.Gives x y m ∧ and.Gives x y n ∧ andNot.Gives m n z ∧ xor.Gives x y z := by
  refine ⟨x ||| y, x &&& y, x ^^^ y, or_gives x y, and_gives x y, ?_, xor_gives x y⟩
  have handNot := andNot_gives (x ||| y) (x &&& y)
  rwa [or_andNot_and] at handNot

theorem actsOnBits (x y : Int64) :
    and.ActsOnBits (· && ·) x y ∧ or.ActsOnBits (· || ·) x y ∧ xor.ActsOnBits (· ^^ ·) x y ∧
      andNot.ActsOnBits (fun p q => p && !q) x y := by
  refine ⟨⟨_, and_gives x y, fun i hi => ?_⟩, ⟨_, or_gives x y, fun i hi => ?_⟩,
    ⟨_, xor_gives x y, fun i hi => ?_⟩, ⟨_, andNot_gives x y, fun i hi => ?_⟩⟩
  all_goals simp [hi]

/-- The operators between integers compute what arithmetic modulo `2 ^ 64` asks of them. A division
by a power of two, as `/` between numbers, is rounded down. -/
theorem integer_arithmetic (x y : Int64) :
    (add.Computes x y ((x.toInt + y.toInt).bmod (2 ^ 64)) ∧
      sub.Computes x y ((x.toInt - y.toInt).bmod (2 ^ 64)) ∧
      mul.Computes x y ((x.toInt * y.toInt).bmod (2 ^ 64))) ∧
    (y ≠ 0 →
      rem.Computes x y (x.toInt.tmod y.toInt) ∧
      quo.Computes x y ((x.toInt.tdiv y.toInt).bmod (2 ^ 64)) ∧
      ∃ q r p, quo.Gives x y q ∧ rem.Gives x y r ∧ mul.Gives q y p ∧ add.Gives p r x ∧
        r.toInt.natAbs < y.toInt.natAbs ∧ (r = 0 ∨ r.toInt.sign = x.toInt.sign)) ∧
    (quo.Gives Int64.minValue (-1) Int64.minValue ∧ rem.Gives Int64.minValue (-1) 0) ∧
    (0 ≤ y →
      shl.Computes x y ((x.toInt * 2 ^ y.toInt.toNat).bmod (2 ^ 64)) ∧
      shr.Computes x y (x.toInt / 2 ^ y.toInt.toNat) ∧
      ∀ b, 0 ≤ b → y.toInt + b.toInt < 2 ^ 63 →
        ∃ c, add.Gives y b c ∧ c.toInt = y.toInt + b.toInt ∧
          ∀ op, op = shl ∨ op = shr →
            ∃ m z, op.Gives x y m ∧ op.Gives m b z ∧ op.Gives x c z) ∧
    (and.ActsOnBits (· && ·) x y ∧ or.ActsOnBits (· || ·) x y ∧ xor.ActsOnBits (· ^^ ·) x y ∧
      andNot.ActsOnBits (fun p q => p && !q) x y) ∧
    (∃ m n, and.Gives x y m ∧ andNot.Gives x y n ∧ or.Gives m n x) ∧
    ∃ m n z, or.Gives x y m ∧ and.Gives x y n ∧ andNot.Gives m n z ∧ xor.Gives x y z := by
  refine ⟨⟨add_computes x y, sub_computes x y, mul_computes x y⟩, fun hy => ?_, ⟨?_, ?_⟩,
    fun hy => ?_, actsOnBits x y, and_or_andNot_give x y, or_andNot_and_give x y⟩
  · exact ⟨rem_computes x hy, quo_computes x hy, quo_rem_give x hy⟩
  · exact quo_gives Int64.minValue (by decide)
  · exact rem_gives Int64.minValue (by decide)
  · refine ⟨shl_computes x hy, shr_computes x hy, fun b hb hsum => ?_⟩
    exact ⟨y + b, add_gives y b, toInt_add_of_lt hy hb hsum, fun _ => shifts_compose x hy hb hsum⟩

theorem integer_arithmetic_at_minValue :
    (-1 : Int64) ≠ 0 ∧ quo.Computes Int64.minValue (-1) (-2 ^ 63) ∧
      rem.Computes Int64.minValue (-1) 0 ∧
      (0 : Int64) ≤ 40 ∧ shr.Computes Int64.minValue 40 (-2 ^ 23) ∧
      (0 : Int64) ≤ 62 ∧ (40 : Int64).toInt + (62 : Int64).toInt < 2 ^ 63 ∧
      ∃ c, add.Gives 40 62 c ∧ c.toInt = 102 ∧
        ∃ m z, shr.Gives Int64.minValue 40 m ∧ shr.Gives m 62 z ∧
          shr.Gives Int64.minValue c z := by
  obtain ⟨hrem, hquo, -⟩ := (integer_arithmetic Int64.minValue (-1)).2.1 (by decide)
  obtain ⟨-, hshr, hshift⟩ := (integer_arithmetic Int64.minValue 40).2.2.2.1 (by decide)
  obtain ⟨c, hc, hcount, hops⟩ := hshift 62 (by decide) (by decide)
  exact ⟨by decide, hquo, hrem, by decide, hshr, by decide, by decide, c, hc, hcount,
    hops shr (.inr rfl)⟩

end Operator

end ScriptHost
