import ScriptHost.Proofs.FloatValue
/-!
# Products and quotients without rounding

The arithmetic of floats rounds to the nearest float. Where the exact product,
or the exact quotient, of two floats is the value of a float itself, that float
is the result.
-/

namespace ScriptHost.Decimal

open Float.Model (Format UnpackedFloat totalExponent)
open Float.Model.UnpackedFloat

variable {x y z : Float} {s t : Sign} {m n : ℕ} {e f : ℤ} {p q : ℚ}

/-! ### Multiples of powers of two -/

theorem two_zpow_pos (e : ℤ) : (0 : ℚ) < 2 ^ e :=
  zpow_pos (by norm_num) e

theorem eq_mul_two_pow (hfe : f ≤ e) (h : (m : ℚ) * 2 ^ e = n * 2 ^ f) :
    n = m * 2 ^ (e - f).toNat := by
  have hpow : (2 : ℚ) ^ e = 2 ^ (e - f).toNat * 2 ^ f := by
    rw [← zpow_natCast, ← zpow_add₀ (by norm_num)]
    congr 1
    omega
  rw [hpow, ← mul_assoc] at h
  exact_mod_cast (mul_right_cancel₀ (two_zpow_pos f).ne' h).symm

theorem log2_mul_two_pow (hm : 0 < m) (k : ℕ) : (m * 2 ^ k).log2 = m.log2 + k := by
  have hbounds := (Nat.log2_eq_iff hm.ne').1 rfl
  apply (Nat.log2_eq_iff (by positivity)).2
  constructor
  · rw [pow_add]
    exact Nat.mul_le_mul_right _ hbounds.1
  · rw [Nat.add_right_comm, pow_add]
    exact Nat.mul_lt_mul_of_pos_right hbounds.2 (by positivity)

theorem le_log2_mul (hm : 0 < m) (hn : 0 < n) : m.log2 + n.log2 ≤ (m * n).log2 := by
  have hleft := ((Nat.log2_eq_iff hm.ne').1 rfl).1
  have hright := ((Nat.log2_eq_iff hn.ne').1 rfl).1
  rw [Nat.le_log2 (Nat.mul_pos hm hn).ne', pow_add]
  exact Nat.mul_le_mul hleft hright

theorem log2_mul_le (hm : 0 < m) (hn : 0 < n) : (m * n).log2 ≤ m.log2 + n.log2 + 1 := by
  have hleft := ((Nat.log2_eq_iff hm.ne').1 rfl).2
  have hright := ((Nat.log2_eq_iff hn.ne').1 rfl).2
  rw [← Nat.lt_succ_iff, Nat.log2_lt (Nat.mul_pos hm hn).ne']
  calc
    m * n < 2 ^ (m.log2 + 1) * 2 ^ (n.log2 + 1) := Nat.mul_lt_mul'' hleft hright
    _ = 2 ^ (m.log2 + n.log2 + 1 + 1) := by rw [← pow_add]; congr 1; omega

/-- The place of the first digit does not depend on how the number is written. -/
theorem log2_add_eq (hm : 0 < m) (hn : 0 < n) (h : (m : ℚ) * 2 ^ e = n * 2 ^ f) :
    m.log2 + e = n.log2 + f := by
  rcases le_total f e with hfe | hef
  · rw [eq_mul_two_pow hfe h, log2_mul_two_pow hm]
    push_cast
    omega
  · rw [eq_mul_two_pow hef h.symm, log2_mul_two_pow hn]
    push_cast
    omega

theorem apply_mul_apply (s t : Sign) (m n : ℕ) :
    ((s * t).apply (m * n : ℕ) : ℤ) = s.apply m * t.apply n := by
  cases s <;> cases t <;> simp only [Sign.apply, Nat.cast_mul, neg_mul, mul_neg, neg_neg]

theorem pos_iff_of_parts (hm : 0 < m) :
    0 < ((s.apply m : ℤ) : ℚ) * 2 ^ e ↔ s = .positive := by
  have hpos : (0 : ℚ) < m * 2 ^ e := mul_pos (Nat.cast_pos.2 hm) (two_zpow_pos e)
  cases s with
  | negative =>
    simp only [Sign.apply, Int.cast_neg, Int.cast_natCast, neg_mul, reduceCtorEq, iff_false, not_lt]
    linarith
  | positive => exact iff_of_true hpos rfl

theorem parts_inj (hm : 0 < m) (hn : 0 < n)
    (h : ((s.apply m : ℤ) : ℚ) * 2 ^ e = ((t.apply n : ℤ) : ℚ) * 2 ^ f) :
    s = t ∧ (m : ℚ) * 2 ^ e = n * 2 ^ f := by
  have hst : s = t := by
    have hiff : s = .positive ↔ t = .positive := by
      rw [← pos_iff_of_parts hm (e := e), h, pos_iff_of_parts hn]
    cases s <;> cases t <;> simp_all
  subst hst
  refine ⟨rfl, ?_⟩
  cases s with
  | negative => simpa [Sign.apply] using h
  | positive => simpa [Sign.apply] using h

/-! ### Rounding what needs no rounding -/

theorem Canonical.log2_le (hme : Canonical m e) : m.log2 ≤ 52 :=
  Nat.lt_succ_iff.1 ((Nat.log2_lt hme.pos.ne').2 hme.lt)

theorem Canonical.le_log2 (hme : Canonical m e) : 52 ≤ m.log2 ∨ e = -1074 :=
  hme.full.imp_left (Nat.le_log2 hme.pos.ne').2

theorem targetExponent_eq (hme : Canonical m e) :
    Format.binary64.targetExponent (totalExponent m e) = e := by
  have hupper := hme.log2_le
  have hlower := hme.le_log2
  have hleast := hme.least
  simp only [Format.targetExponent, totalExponent, Format.mantissaBits, Format.minExponent]
  omega

theorem shiftRight_mul_two_pow (m k : ℕ) :
    ExtendedMantissa.ofMantissaAndAccuracy (m * 2 ^ k) .exact >>> k =
      .ofMantissaAndAccuracy m .exact := by
  change k.repeat ExtendedMantissa.shiftRightOne ⟨m * 2 ^ k, false, false⟩ = ⟨m, false, false⟩
  induction k generalizing m with
  | zero => rw [pow_zero, mul_one]; rfl
  | succ k ih =>
    have hdouble : m * 2 ^ (k + 1) = m * 2 * 2 ^ k := by ring
    rw [Nat.repeat, hdouble, ih, ExtendedMantissa.shiftRightOne]
    simp

theorem shiftToTargetExponent_eq (hme : Canonical m e) (k : ℕ) :
    shiftToTargetExponent Format.binary64 (m * 2 ^ k) (e - k) .exact =
      (.ofMantissaAndAccuracy m .exact, e) := by
  have htotal : totalExponent (m * 2 ^ k) (e - k) = totalExponent m e := by
    rw [totalExponent, totalExponent, log2_mul_two_pow hme.pos]
    push_cast
    omega
  have hshift : (e - (e - k)).toNat = k := by omega
  rw [shiftToTargetExponent, htotal, targetExponent_eq hme, shiftToExponent, hshift,
    shiftRight_mul_two_pow, sub_add_cancel]

theorem roundWithAccuracy_eq (s : Sign) (hme : Canonical m e) (k : ℕ) :
    roundWithAccuracy Format.binary64 s (m * 2 ^ k) (e - k) .exact = .finite s m e hme.pos := by
  have hagain := shiftToTargetExponent_eq hme 0
  rw [pow_zero, mul_one, Nat.cast_zero, sub_zero] at hagain
  have hrounded : (ExtendedMantissa.ofMantissaAndAccuracy m .exact).roundedMantissa = m := rfl
  simp only [roundWithAccuracy, shiftToTargetExponent_eq hme k, hrounded, hagain]
  exact dif_neg hme.pos.ne'

theorem ofModel_pack_unpack (x : Float) : Float.ofModel (.pack x.toModel.unpack) = x := by
  apply Float.toBits_inj.1
  apply UInt64.toBitVec_inj.1
  exact pack_unpack_of_valid x.toModel.valid

/-! ### The results -/

/-- Rounding a mantissa of any length gives the float with that value. -/
theorem pack_roundWithAccuracy_eq {u : ℕ} {g : ℤ} (hme : Canonical m e)
    (hg : g ≤ e) (h : (u : ℚ) * 2 ^ g = m * 2 ^ e) (s : Sign) :
    roundWithAccuracy Format.binary64 s u g .exact = .finite s m e hme.pos := by
  have hround := roundWithAccuracy_eq s hme (e - g).toNat
  rwa [← eq_mul_two_pow hg h.symm, Int.toNat_of_nonneg (by omega), sub_sub_cancel] at hround

/-- A product has at least as many digits as the result can have, unless it is below all floats. -/
theorem exponent_mul_le {k : ℕ} {g : ℤ} (hme : Canonical m e) (hnf : Canonical n f)
    (hkg : Canonical k g) (h : ((m * n : ℕ) : ℚ) * 2 ^ (e + f) = k * 2 ^ g) : e + f ≤ g := by
  have hlog := log2_add_eq (Nat.mul_pos hme.pos hnf.pos) hkg.pos h
  have hlower := le_log2_mul hme.pos hnf.pos
  have hk := hkg.log2_le
  have hm := hme.le_log2
  have hn := hnf.le_log2
  have hg := hkg.least
  omega

theorem mul_eq_of_value? (hx : value? x = some p) (hy : value? y = some q)
    (hz : value? z = some (p * q)) (hpq : p * q ≠ 0) : x * y = z := by
  obtain ⟨s, m, e, hme, hxu, rfl⟩ := exists_unpack_of_value? hx (left_ne_zero_of_mul hpq)
  obtain ⟨t, n, f, hnf, hyu, rfl⟩ := exists_unpack_of_value? hy (right_ne_zero_of_mul hpq)
  obtain ⟨u, k, g, hkg, hzu, hvalue⟩ := exists_unpack_of_value? hz hpq
  have hproduct : ((((s * t).apply (m * n : ℕ) : ℤ)) : ℚ) * 2 ^ (e + f) =
      ((u.apply k : ℤ) : ℚ) * 2 ^ g := by
    rw [← hvalue, apply_mul_apply, zpow_add₀ (by norm_num)]
    push_cast
    ring
  obtain ⟨rfl, hsize⟩ := parts_inj (Nat.mul_pos hme.pos hnf.pos) hkg.pos hproduct
  change Float.ofModel (.pack (mul Format.binary64 x.toModel.unpack y.toModel.unpack)) = z
  rw [hxu, hyu, mul, pack_roundWithAccuracy_eq hkg (exponent_mul_le hme hnf hkg hsize) hsize, ← hzu,
    ofModel_pack_unpack]

/-- The quotient is worked out to at least as many digits as the result can have. -/
theorem exponent_div_le {k : ℕ} {g : ℤ} (hm : 0 < m) (hn : 0 < n) (hkg : Canonical k g)
    (h : (m : ℚ) * 2 ^ e = ((k * n : ℕ) : ℚ) * 2 ^ (g + f)) :
    Format.binary64.targetExponent (totalExponent m e - totalExponent n f) ≤ g := by
  have hlog := log2_add_eq hm (Nat.mul_pos hkg.pos hn) h
  have hupper := log2_mul_le hkg.pos hn
  have hk := hkg.log2_le
  have hg := hkg.least
  simp only [Format.targetExponent, totalExponent, Format.mantissaBits, Format.minExponent]
  omega

/-- An exact quotient leaves no remainder. -/
theorem divCore_eq {k : ℕ} {g : ℤ} (hm : 0 < m) (hn : 0 < n) (hkg : Canonical k g)
    (h : (m : ℚ) * 2 ^ e = ((k * n : ℕ) : ℚ) * 2 ^ (g + f)) :
    ∃ d : ℕ, divCore Format.binary64 m e n f = (k * 2 ^ d, g - d, .exact) := by
  have htarget := exponent_div_le hm hn hkg h
  generalize hT : min (e - f) (Format.binary64.targetExponent
    (totalExponent m e - totalExponent n f)) = T
  have hTg : T ≤ g := by omega
  have hTe : T ≤ e - f := by omega
  have hshifted : ((k * n : ℕ) : ℚ) * 2 ^ g = ((m * 2 ^ (e - f - T).toNat : ℕ) : ℚ) * 2 ^ T := by
    have hpow : (2 : ℚ) ^ (e - f - T).toNat * 2 ^ T * 2 ^ f = 2 ^ e := by
      rw [← zpow_natCast, ← zpow_add₀ (by norm_num), ← zpow_add₀ (by norm_num)]
      congr 1
      omega
    apply mul_right_cancel₀ (two_zpow_pos f).ne'
    rw [mul_assoc, ← zpow_add₀ (by norm_num), ← h, ← hpow]
    push_cast
    ring
  have hdividend : m <<< (e - f - T).toNat = k * 2 ^ (g - T).toNat * n := by
    rw [Nat.shiftLeft_eq, eq_mul_two_pow hTg hshifted]
    ring
  refine ⟨(g - T).toNat, ?_⟩
  rw [divCore, hT]
  simp only [hdividend, Nat.mul_div_cancel _ hn, Nat.mul_mod_left, accuracyOfFraction, if_pos]
  rw [Int.toNat_of_nonneg (by omega), sub_sub_cancel]

theorem div_eq_of_value? (hx : value? x = some (p * q)) (hy : value? y = some q)
    (hz : value? z = some p) (hpq : p * q ≠ 0) : x / y = z := by
  obtain ⟨u, k, g, hkg, hzu, rfl⟩ := exists_unpack_of_value? hz (left_ne_zero_of_mul hpq)
  obtain ⟨t, n, f, hnf, hyu, rfl⟩ := exists_unpack_of_value? hy (right_ne_zero_of_mul hpq)
  obtain ⟨s, m, e, hme, hxu, hvalue⟩ := exists_unpack_of_value? hx hpq
  have hproduct : ((s.apply m : ℤ) : ℚ) * 2 ^ e =
      ((((u * t).apply (k * n : ℕ) : ℤ)) : ℚ) * 2 ^ (g + f) := by
    rw [← hvalue, apply_mul_apply, zpow_add₀ (by norm_num)]
    push_cast
    ring
  obtain ⟨rfl, hsize⟩ := parts_inj hme.pos (Nat.mul_pos hkg.pos hnf.pos) hproduct
  obtain ⟨d, hcore⟩ := divCore_eq hme.pos hnf.pos hkg hsize
  have hsign : u * t / t = u := by cases u <;> cases t <;> rfl
  change Float.ofModel (.pack (div Format.binary64 x.toModel.unpack y.toModel.unpack)) = z
  rw [hxu, hyu, div, hcore, hsign]
  simp only
  rw [roundWithAccuracy_eq u hkg d, ← hzu, ofModel_pack_unpack]

end ScriptHost.Decimal
