import ScriptHost.Library.MathModule
import ScriptHost.Proofs.ExactArithmetic
import ScriptHost.Proofs.TextFunctions
/-!
# Scaling by powers of two

A float is scaled in two steps of half the exponent each. Where the exact
result is the value of a float, it is returned as long as both steps are powers
of two that floats can have, so for exponents from -2046 to 2046. Beyond these
the second power is infinite or zero, and the result with it, although floats
lie up to 2097 binary places apart.
-/

namespace ScriptHost

open Float.Model (Format UnpackedFloat)
open Float.Model.UnpackedFloat
open Decimal

variable {x y : Float} {s : Sign} {m : ℕ} {e k : ℤ} {q : ℚ} {n : Int64}

/-! ### Values of floats -/

namespace Decimal

theorem mul_two_zpow_ne_zero (hq : q ≠ 0) (k : ℤ) : q * 2 ^ k ≠ 0 :=
  mul_ne_zero hq (two_zpow_pos k).ne'

theorem mul_two_zpow_neg_iff : q * 2 ^ k < 0 ↔ q < 0 := by
  rw [← not_le, ← not_le, mul_nonneg_iff_of_pos_right (two_zpow_pos k)]

/-- Numbers with so few digits, none of them too far from the point, are values of floats. -/
theorem exists_value?_eq (s : Sign) (hm : 0 < m) (hlt : m < 2 ^ 53) (hleast : -1074 ≤ e)
    (hgreatest : m.log2 + e ≤ 1023) :
    ∃ x, value? x = some (((s.apply m : ℤ) : ℚ) * 2 ^ e) := by
  have hlog : m.log2 < 53 := (Nat.log2_lt hm.ne').2 hlt
  obtain ⟨d, hd⟩ : ∃ d : ℕ, (d : ℤ) = min (52 - (m.log2 : ℤ)) (e + 1074) :=
    ⟨_, Int.toNat_of_nonneg (by omega)⟩
  have hpos : 0 < m * 2 ^ d := by positivity
  have hlog' := log2_mul_two_pow hm d
  have hcanonical : Canonical (m * 2 ^ d) (e - d) := by
    refine ⟨hpos, (Nat.log2_lt hpos.ne').1 (by omega), by omega, by omega, ?_⟩
    rw [← Nat.le_log2 hpos.ne']
    omega
  obtain ⟨x, hx⟩ := exists_unpack_eq s hcanonical
  refine ⟨x, (value?_of_unpack hx).trans ?_⟩
  have hpow : (2 : ℚ) ^ e = 2 ^ d * 2 ^ (e - d) := by
    rw [← zpow_natCast, ← zpow_add₀ (by norm_num)]
    congr 1
    omega
  rw [hpow]
  cases s <;> simp only [Sign.apply] <;> push_cast <;> ring_nf

theorem exists_value?_between_of_nonneg (hx : value? x = some q) (hq : q ≠ 0) {n : ℤ}
    (hy : value? y = some (q * 2 ^ n)) (hk : 0 ≤ k) (hkn : k ≤ n) :
    ∃ z, value? z = some (q * 2 ^ k) := by
  obtain ⟨s, m, e, hme, -, rfl⟩ := exists_unpack_of_value? hx hq
  obtain ⟨t, l, f, hlf, -, hvalue⟩ :=
    exists_unpack_of_value? hy (mul_two_zpow_ne_zero hq n)
  rw [mul_assoc, ← zpow_add₀ (by norm_num)] at hvalue
  obtain ⟨rfl, hsize⟩ := parts_inj hme.pos hlf.pos hvalue
  have hlog := log2_add_eq hme.pos hlf.pos hsize
  have hleast := hme.least
  have hgreatest := hlf.greatest
  have hl := hlf.log2_le
  rw [mul_assoc, ← zpow_add₀ (by norm_num)]
  exact exists_value?_eq s hme.pos hme.lt (by omega) (by omega)

/-- On the way from one float to another all multiples by powers of two are values of floats. -/
theorem exists_value?_between (hx : value? x = some q) (hq : q ≠ 0) {n : ℤ}
    (hy : value? y = some (q * 2 ^ n)) (hk : 0 ≤ k ∧ k ≤ n ∨ n ≤ k ∧ k ≤ 0) :
    ∃ z, value? z = some (q * 2 ^ k) := by
  rcases hk with ⟨hk, hkn⟩ | ⟨hnk, hk⟩
  · exact exists_value?_between_of_nonneg hx hq hy hk hkn
  · have hback : q * 2 ^ n * 2 ^ (-n) = q := by
      rw [mul_assoc, ← zpow_add₀ (by norm_num), add_neg_cancel, zpow_zero, mul_one]
    obtain ⟨z, hz⟩ := exists_value?_between_of_nonneg (k := k - n) hy
      (mul_two_zpow_ne_zero hq n) (by rw [hback]; exact hx) (by omega) (by omega)
    rw [mul_assoc, ← zpow_add₀ (by norm_num), add_sub_cancel] at hz
    exact ⟨z, hz⟩

end Decimal

namespace Library.MathModule

/-! ### Powers of two -/

theorem value?_of_unpack_power {hm : 0 < 2 ^ 52}
    (hx : x.toModel.unpack = .finite .positive (2 ^ 52) e hm) : value? x = some (2 ^ (52 + e)) := by
  rw [value?_of_unpack hx, zpow_add₀ (by norm_num), Sign.apply]
  norm_num

theorem value?_one : value? 1 = some 1 := by
  have hone : (1 : Float).toModel.unpack = .finite .positive (2 ^ 52) (-52) (by decide) := rfl
  rw [value?_of_unpack_power hone, add_neg_cancel, zpow_zero]

theorem unpack_ofBits_eq_of {b : UInt64}
    (hb : unpack Format.binary64 b.toBitVec = x.toModel.unpack) :
    Float.ofBits b = x := by
  change Float.ofModel (.pack (unpack Format.binary64 b.toBitVec)) = x
  rw [hb, ofModel_pack_unpack]

theorem toBitVec_shiftLeft {k : ℕ} (hk : k < 1024) :
    (UInt64.ofNat ((k + 1023) <<< 52)).toBitVec =
      packComponents Format.binary64 .positive (BitVec.ofNat 11 (k + 1023)) 0#52 := by
  have hexponent : (BitVec.ofNat 11 (k + 1023)).toNat = k + 1023 := Nat.mod_eq_of_lt (by omega)
  have hleft : ((k + 1023) <<< 52) % 2 ^ 64 = (k + 1023) <<< 52 := by
    rw [Nat.shiftLeft_eq]
    omega
  have hright : (packComponents Format.binary64 .positive (BitVec.ofNat 11 (k + 1023)) 0#52).toNat =
      (0 <<< 11 ||| (k + 1023)) <<< 52 ||| 0 := by
    rw [packComponents, BitVec.toNat_append, BitVec.toNat_append, hexponent]
    rfl
  apply BitVec.eq_of_toNat_eq
  rw [hright, Nat.or_zero, Nat.zero_shiftLeft, Nat.zero_or, UInt64.toNat_toBitVec,
    UInt64.toNat_ofNat', hleft]

theorem value?_ofBits_shiftLeft {k : ℕ} (hk : k < 1024) :
    value? (Float.ofBits (UInt64.ofNat ((k + 1023) <<< 52))) = some (2 ^ (k : ℤ)) := by
  have hcanonical : Canonical (2 ^ 52) (k - 52) :=
    ⟨by norm_num, by norm_num, by omega, by omega, .inl le_rfl⟩
  have hE : (BitVec.ofNat 11 (k + 1023)).toNat = k + 1023 := Nat.mod_eq_of_lt (by omega)
  have hlast : BitVec.ofNat 11 (k + 1023) ≠ -1#11 :=
    mt (congrArg BitVec.toNat) (by rw [hE]; change _ ≠ 2047; omega)
  have hfirst : BitVec.ofNat 11 (k + 1023) ≠ 0#11 :=
    mt (congrArg BitVec.toNat) (by rw [hE]; change _ ≠ 0; omega)
  obtain ⟨x, hx⟩ := exists_unpack_eq .positive hcanonical
  have hbits : Float.ofBits (UInt64.ofNat ((k + 1023) <<< 52)) = x := by
    apply unpack_ofBits_eq_of
    rw [toBitVec_shiftLeft hk, unpack_packComponents, if_neg hlast, if_neg hfirst, hx]
    rw [UnpackedFloat.finite.injEq, hE]
    exact ⟨rfl, rfl, by omega⟩
  rw [hbits, value?_of_unpack_power hx, add_sub_cancel]

theorem value?_twoPow {n : ℤ} (hlower : -1024 < n) (hupper : n < 1024) :
    value? (twoPow n) = some (2 ^ n) := by
  rw [twoPow]
  by_cases hn : 0 ≤ n
  · simp only [if_pos hn, if_pos (show n.toNat < 1024 by omega)]
    rw [value?_ofBits_shiftLeft (by omega), Int.toNat_of_nonneg hn]
  · simp only [if_neg hn, if_pos (show (-n).toNat < 1024 by omega)]
    have hpower := value?_ofBits_shiftLeft (k := (-n).toNat) (by omega)
    rw [Int.toNat_of_nonneg (by omega)] at hpower
    have hlog : Nat.log2 1 = 0 := by decide
    obtain ⟨z, hz⟩ := exists_value?_eq (m := 1) (e := n) .positive (by norm_num) (by norm_num)
      (by omega) (by rw [hlog]; omega)
    have hinverse : (2 : ℚ) ^ n * 2 ^ (-n) = 1 := by
      rw [← zpow_add₀ (by norm_num), add_neg_cancel, zpow_zero]
    rw [Sign.apply, Nat.cast_one, Int.cast_one, one_mul] at hz
    rw [div_eq_of_value? (by rw [hinverse]; exact value?_one) hpower hz
      (by rw [hinverse]; exact one_ne_zero), hz]

theorem twoPow_of_le {n : ℤ} (hn : 1024 ≤ n) : twoPow n = infinity := by
  rw [twoPow]
  simp only [if_pos (show 0 ≤ n by omega), if_neg (show ¬n.toNat < 1024 by omega)]

theorem twoPow_of_le_neg {n : ℤ} (hn : n ≤ -1024) : twoPow n = 0 := by
  have hreciprocal : 1 / infinity = 0 := rfl
  rw [twoPow]
  simp only [if_neg (show ¬0 ≤ n by omega), if_neg (show ¬(-n).toNat < 1024 by omega), hreciprocal]

/-! ### Products with infinity and zero -/

theorem mul_eq_of_unpack {u : Sign → UnpackedFloat} (hx : value? x = some q) (hq : q ≠ 0)
    (hu : ∀ s m e (hm : 0 < m), mul Format.binary64 (.finite s m e hm) y.toModel.unpack = u s) :
    x * y = if q < 0 then .ofModel (.pack (u .negative)) else .ofModel (.pack (u .positive)) := by
  obtain ⟨s, m, e, hme, hunpack, rfl⟩ := exists_unpack_of_value? hx hq
  change Float.ofModel (.pack (mul Format.binary64 x.toModel.unpack y.toModel.unpack)) = _
  rw [hunpack, hu]
  have hpos := pos_iff_of_parts (s := s) (e := e) hme.pos
  cases s with
  | negative => rw [if_pos (lt_of_le_of_ne (not_lt.1 (mt hpos.1 Sign.noConfusion)) hq)]
  | positive => rw [if_neg (hpos.2 rfl).le.not_gt]

theorem mul_infinity (hx : value? x = some q) (hq : q ≠ 0) :
    x * infinity = if q < 0 then -infinity else infinity :=
  mul_eq_of_unpack (u := .infinity) hx hq fun s _ _ _ => by cases s <;> rfl

theorem mul_zero_of_value? (hx : value? x = some q) (hq : q ≠ 0) :
    x * 0 = if q < 0 then -0 else 0 :=
  mul_eq_of_unpack (u := .zero) hx hq fun s _ _ _ => by cases s <;> rfl

theorem value?_zero : value? 0 = some 0 ∧ value? (-0) = some 0 := by
  have hpos : (0 : Float).isFinite = true ∧ (magnitude 0).mantissa = 0 := ⟨rfl, rfl⟩
  have hneg : (-0 : Float).isFinite = true ∧ (magnitude (-0)).mantissa = 0 := ⟨rfl, rfl⟩
  constructor
  · rw [value?, if_pos hpos.1, hpos.2, Nat.cast_zero, zero_mul, mul_zero]
  · rw [value?, if_pos hneg.1, hneg.2, Nat.cast_zero, zero_mul, mul_zero]

theorem value?_infinity : value? infinity = none ∧ value? (-infinity) = none :=
  ⟨if_neg (by decide), if_neg (by decide)⟩

/-! ### Scaling in two steps -/

theorem halves_cases (e : ℤ) :
    (0 ≤ e.tdiv 2 ∧ e.tdiv 2 ≤ e - e.tdiv 2 ∧ e - e.tdiv 2 ≤ e.tdiv 2 + 1) ∨
      (e.tdiv 2 ≤ 0 ∧ e - e.tdiv 2 ≤ e.tdiv 2 ∧ e.tdiv 2 ≤ e - e.tdiv 2 + 1) := by
  rcases le_total 0 e with he | he
  · have hdiv := Int.tdiv_eq_ediv_of_nonneg (b := 2) he
    omega
  · have hdiv := Int.tdiv_eq_ediv_of_nonneg (b := 2) (neg_nonneg.2 he)
    rw [Int.neg_tdiv] at hdiv
    omega

/-- The exponent that is shared out between the two steps. -/
def clamp (n : Int64) : ℤ :=
  max (-0x80000000) (min n.toInt 0x7FFFFFFF)

theorem scale_eq (hx : value? x = some q) (hq : q ≠ 0) (n : Int64) :
    scale x n =
      x * twoPow ((clamp n).tdiv 2) * twoPow (clamp n - (clamp n).tdiv 2) := by
  have hnonzero : (x == 0) = false := by
    rw [← Bool.not_eq_true, Float.beq_iff_ne_nan_and_eq]
    rintro ⟨-, -, rfl | ⟨rfl, -⟩ | ⟨rfl, -⟩⟩
    · exact hq (Option.some.inj (hx.symm.trans value?_zero.1))
    · exact hq (Option.some.inj (hx.symm.trans value?_zero.1))
    · exact hq (Option.some.inj (hx.symm.trans value?_zero.2))
  rw [scale, isFinite_of_value? hx, hnonzero]
  rfl

/-- A step on the way to a float is exact. -/
theorem value?_mul_twoPow (hx : value? x = some q) (hq : q ≠ 0) {n : ℤ}
    (hy : value? y = some (q * 2 ^ n)) (hk : 0 ≤ k ∧ k ≤ n ∨ n ≤ k ∧ k ≤ 0)
    (hlower : -1024 < k) (hupper : k < 1024) : value? (x * twoPow k) = some (q * 2 ^ k) := by
  obtain ⟨z, hz⟩ := exists_value?_between hx hq hy hk
  have hstep : x * twoPow k = z :=
    mul_eq_of_value? hx (value?_twoPow hlower hupper) hz (mul_two_zpow_ne_zero hq k)
  rw [hstep, hz]

theorem scale_eq_of_natAbs_le (hx : value? x = some q) (hq : q ≠ 0)
    (hy : value? y = some (q * 2 ^ n.toInt)) (hn : n.toInt.natAbs ≤ 2046) : scale x n = y := by
  have hclamp : clamp n = n.toInt := by
    rw [clamp]
    omega
  have hhalves := halves_cases n.toInt
  have hfirst := value?_mul_twoPow (k := n.toInt.tdiv 2) hx hq hy (by omega) (by omega) (by omega)
  have hsecond : value? (twoPow (n.toInt - n.toInt.tdiv 2)) =
      some (2 ^ (n.toInt - n.toInt.tdiv 2)) := value?_twoPow (by omega) (by omega)
  have hsum : q * 2 ^ n.toInt.tdiv 2 * 2 ^ (n.toInt - n.toInt.tdiv 2) = q * 2 ^ n.toInt := by
    rw [mul_assoc, ← zpow_add₀ (by norm_num), add_sub_cancel]
  rw [scale_eq hx hq, hclamp]
  rw [← hsum] at hy
  refine mul_eq_of_value? hfirst hsecond hy ?_
  rw [hsum]
  exact mul_two_zpow_ne_zero hq _

theorem scale_of_gt (hx : value? x = some q) (hq : q ≠ 0)
    (hy : value? y = some (q * 2 ^ n.toInt)) (hn : 2046 < n.toInt) :
    scale x n = if q < 0 then -infinity else infinity := by
  have hclamp : 2047 ≤ clamp n ∧ clamp n ≤ n.toInt := by
    rw [clamp]
    omega
  have hhalves := halves_cases (clamp n)
  rw [scale_eq hx hq, twoPow_of_le (n := clamp n - (clamp n).tdiv 2) (by omega)]
  -- The second power is infinite. Only if the exponent is 2047 the first one is not.
  by_cases hfirst : (clamp n).tdiv 2 < 1024
  · have hstep := value?_mul_twoPow (k := (clamp n).tdiv 2) hx hq hy (.inl (by omega)) (by omega)
      hfirst
    rw [mul_infinity hstep (mul_two_zpow_ne_zero hq _)]
    simp only [mul_two_zpow_neg_iff]
  · rw [twoPow_of_le (not_lt.1 hfirst), mul_infinity hx hq]
    split <;> rfl

theorem scale_of_lt (hx : value? x = some q) (hq : q ≠ 0)
    (hy : value? y = some (q * 2 ^ n.toInt)) (hn : n.toInt < -2046) :
    scale x n = if q < 0 then -0 else 0 := by
  have hclamp : n.toInt ≤ clamp n ∧ clamp n ≤ -2047 := by
    rw [clamp]
    omega
  have hhalves := halves_cases (clamp n)
  rw [scale_eq hx hq, twoPow_of_le_neg (n := clamp n - (clamp n).tdiv 2) (by omega)]
  by_cases hfirst : -1024 < (clamp n).tdiv 2
  · have hstep := value?_mul_twoPow (k := (clamp n).tdiv 2) hx hq hy (.inr (by omega)) hfirst
      (by omega)
    rw [mul_zero_of_value? hstep (mul_two_zpow_ne_zero hq _)]
    simp only [mul_two_zpow_neg_iff]
  · rw [twoPow_of_le_neg (not_lt.1 hfirst), mul_zero_of_value? hx hq]
    split <;> rfl

/-- Calls the function of a name. -/
def call (handler : CallHandler) (name : String) (args : List Value) (w : World) :
    Option (Outcome × World) :=
  (declared? name members).bind fun c => c.run handler args w

theorem call_ldexp (handler : CallHandler) (x : Float) (n : Int64) (w : World) :
    call handler "ldexp" [.float x, .int n] w = some (.ok (.float (scale x n)), w) := by
  have hname : declared? "ldexp" members =
      some (Signature.lift ⟨[.float, .int], .value (.native .float)⟩ fun xs =>
        scale xs.1 xs.2.1) := by
    simp [declared?, members]
  have hargs : Arguments.Denotes w.heap [.float, .int] [.float x, .int n] (x, n, ()) :=
    ⟨rfl, rfl, trivial⟩
  rw [call, hname, Option.bind_some, Signature.run_lift hargs]
  rfl

/-- Where the exact result is the value of a float, the function `ldexp` returns that float for
exponents of at most 2046 either way. Beyond these it returns infinity or zero with the sign of the
number, which is not the float. -/
theorem ldexp_exact_iff (handler : CallHandler) (w : World) (hx : value? x = some q) (hq : q ≠ 0)
    (hy : value? y = some (q * 2 ^ n.toInt)) :
    ∃ z, call handler "ldexp" [.float x, .int n] w = some (.ok (.float z), w) ∧
      (z = y ↔ n.toInt.natAbs ≤ 2046) ∧
      (2046 < n.toInt → z = if q < 0 then -infinity else infinity) ∧
      (n.toInt < -2046 → z = if q < 0 then -0 else 0) := by
  have hover := scale_of_gt hx hq hy
  have hunder := scale_of_lt hx hq hy
  refine ⟨scale x n, call_ldexp handler x n w, ⟨fun heq => ?_, scale_eq_of_natAbs_le hx hq hy⟩,
    hover, hunder⟩
  by_contra hn
  have hbeyond : 2046 < n.toInt ∨ n.toInt < -2046 := by omega
  rcases hbeyond with hgt | hlt
  · rw [← heq, hover hgt] at hy
    split at hy
    · cases value?_infinity.2.symm.trans hy
    · cases value?_infinity.1.symm.trans hy
  · rw [← heq, hunder hlt] at hy
    have hzero : q * 2 ^ n.toInt = 0 := by
      split at hy
      · exact (Option.some.inj (value?_zero.2.symm.trans hy)).symm
      · exact (Option.some.inj (value?_zero.1.symm.trans hy)).symm
    exact mul_two_zpow_ne_zero hq _ hzero

theorem value?_least : value? (Float.ofBits 1) = some (2 ^ (-1074 : ℤ)) := by
  have hunpack : (Float.ofBits 1).toModel.unpack = .finite .positive 1 (-1074) (by decide) := rfl
  rw [value?_of_unpack hunpack, Sign.apply, Nat.cast_one, Int.cast_one, one_mul]

/-- The greatest exponent for which a result is exact, from the least float. -/
theorem ldexp_exact_iff_greatestExponent :
    value? (Float.ofBits 1) = some (2 ^ (-1074 : ℤ)) ∧ (2 : ℚ) ^ (-1074 : ℤ) ≠ 0 ∧
      value? (Float.ofBits 0x7CB0000000000000) =
        some (2 ^ (-1074 : ℤ) * 2 ^ (2046 : Int64).toInt) ∧
      call (fun _ _ _ => none) "ldexp" [.float (Float.ofBits 1), .int 2046] ∅ =
        some (.ok (.float (Float.ofBits 0x7CB0000000000000)), ∅) := by
  have hunpack : (Float.ofBits 0x7CB0000000000000).toModel.unpack =
    .finite .positive (2 ^ 52) 920 (by decide) := rfl
  have hn : (2046 : Int64).toInt = 2046 := rfl
  have hy : value? (Float.ofBits 0x7CB0000000000000) =
      some (2 ^ (-1074 : ℤ) * 2 ^ (2046 : Int64).toInt) := by
    rw [value?_of_unpack_power hunpack, hn, ← zpow_add₀ (by norm_num)]
    norm_num
  have hq : (2 : ℚ) ^ (-1074 : ℤ) ≠ 0 := (two_zpow_pos _).ne'
  obtain ⟨z, hcall, hexact, -, -⟩ := ldexp_exact_iff (fun _ _ _ => none) ∅ value?_least hq hy
  rw [hexact.2 (by rw [hn]; norm_num)] at hcall
  exact ⟨value?_least, hq, hy, hcall⟩

/-- With the next exponent the least float becomes infinite, although the exact result is the value
of a float. -/
theorem ldexp_ne_exact_nextExponent :
    value? (Float.ofBits 1) = some (2 ^ (-1074 : ℤ)) ∧
      value? (Float.ofBits 0x7CC0000000000000) =
        some (2 ^ (-1074 : ℤ) * 2 ^ (2047 : Int64).toInt) ∧
      call (fun _ _ _ => none) "ldexp" [.float (Float.ofBits 1), .int 2047] ∅ =
        some (.ok (.float infinity), ∅) ∧
      infinity ≠ Float.ofBits 0x7CC0000000000000 := by
  have hunpack : (Float.ofBits 0x7CC0000000000000).toModel.unpack =
    .finite .positive (2 ^ 52) 921 (by decide) := rfl
  have hn : (2047 : Int64).toInt = 2047 := rfl
  have hy : value? (Float.ofBits 0x7CC0000000000000) =
      some (2 ^ (-1074 : ℤ) * 2 ^ (2047 : Int64).toInt) := by
    rw [value?_of_unpack_power hunpack, hn, ← zpow_add₀ (by norm_num)]
    norm_num
  have hpos := two_zpow_pos (-1074)
  refine ⟨value?_least, hy, ?_, fun heq => ?_⟩
  · rw [call_ldexp, scale_of_gt value?_least hpos.ne' hy (by rw [hn]; norm_num),
      if_neg hpos.not_gt]
  · rw [← heq, value?_infinity.1] at hy
    cases hy

end Library.MathModule

end ScriptHost
