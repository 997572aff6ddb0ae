import Mathlib
import ScriptHost.Decimal.Magnitude
/-!
# The bits of a float

A float is known by its bits, which are a sign, an exponent and a fraction.
Floats are equal if they are the same one and no NaN, or both are zeros. That
packing the fields of a float undoes unpacking them is known from the library
`Batteries.Data.Float`, which nothing less than the whole of Mathlib brings
along. So every module that needs the bits of floats imports this one.
-/

namespace ScriptHost

variable {x y z : Float}

/-! ### Equality -/

theorem beq_self_iff_isNaN : (x == x) = true ↔ x.isNaN = false := by
  rw [Float.beq_self_iff, Float.isNaN_eq_decide_eq_nan, decide_eq_false_iff_not]

theorem float_beq_symm (hxy : (x == y) = true) : (y == x) = true := by
  rw [Float.beq_iff_ne_nan_and_eq] at hxy ⊢
  tauto

theorem float_beq_trans (hxy : (x == y) = true) (hyz : (y == z) = true) : (x == z) = true := by
  rw [Float.beq_iff_ne_nan_and_eq] at hxy hyz ⊢
  grind

namespace Decimal

open Float.Model (Format UnpackedFloat)
open Float.Model.UnpackedFloat

/-! ### The fields of the bits -/

theorem toNat_unpackExponent (b : UInt64) :
    (@unpackExponent Format.binary64 b.toBitVec).toNat = ((b >>> 52) &&& 0x7FF).toNat := by
  have hmask : (0x7FF : UInt64).toNat = 2 ^ 11 - 1 := by decide
  rw [unpackExponent_def, BitVec.extractLsb'_toNat, UInt64.toNat_and, hmask,
    Nat.and_two_pow_sub_one_eq_mod, UInt64.toNat_shiftRight]
  rfl

theorem toNat_unpackMantissa (b : UInt64) :
    (@unpackMantissa Format.binary64 b.toBitVec).toNat =
      (b &&& 0xFFFFFFFFFFFFF).toNat := by
  have hmask : (0xFFFFFFFFFFFFF : UInt64).toNat = 2 ^ 52 - 1 := by decide
  rw [unpackMantissa_def, BitVec.extractLsb'_toNat, UInt64.toNat_and, hmask,
    Nat.and_two_pow_sub_one_eq_mod, Nat.shiftRight_zero]
  rfl

theorem unpackSign_eq_zero_iff (b : UInt64) :
    @unpackSign Format.binary64 b.toBitVec = 0#1 ↔ ¬b >>> 63 = 1 := by
  have hlt := b.toNat_lt
  have hsign : (@unpackSign Format.binary64 b.toBitVec).toNat = b.toNat / 2 ^ 63 % 2 := by
    rw [unpackSign_def, BitVec.extractLsb'_toNat, Nat.shiftRight_eq_div_pow]
    rfl
  have htop : (b >>> 63).toNat = b.toNat / 2 ^ 63 := by
    rw [UInt64.toNat_shiftRight, Nat.shiftRight_eq_div_pow]
    rfl
  rw [← BitVec.toNat_inj, ← UInt64.toNat_inj, hsign, htop]
  simp only [BitVec.toNat_ofNat, UInt64.toNat_one]
  omega

theorem isNegative_iff (x : Float) :
    isNegative x = true ↔
      Sign.ofBitVec (@unpackSign Format.binary64 x.toBits.toBitVec) = .negative := by
  rw [isNegative, beq_iff_eq, Sign.ofBitVec]
  by_cases hsign : @unpackSign Format.binary64 x.toBits.toBitVec = 0#1
  · rw [if_pos hsign]
    exact iff_of_false ((unpackSign_eq_zero_iff _).1 hsign) Sign.noConfusion
  · rw [if_neg hsign]
    exact iff_of_true (not_not.1 (mt (unpackSign_eq_zero_iff _).2 hsign)) rfl

theorem toNat_append_fraction (b : BitVec 52) : (1#1 ++ b).toNat = 2 ^ 52 + b.toNat := by
  rw [BitVec.toNat_append, ← Nat.shiftLeft_add_eq_or_of_lt b.isLt]
  rfl

/-- What three fields of bits stand for. -/
theorem unpack_packComponents (s : Sign) (E : BitVec 11) (M : BitVec 52) :
    unpack Format.binary64 (packComponents Format.binary64 s E M) =
      if E = -1#11 then if M = 0#52 then .infinity s else .notANumber
      else if E = 0#11 then
        if hM : M = 0#52 then .zero s
        else .finite s M.toNat (-1074) (Nat.pos_of_ne_zero fun h => hM (BitVec.eq_of_toNat_eq h))
      else .finite s (2 ^ 52 + M.toNat) ((E.toNat : ℤ) - 1075) (by positivity) := by
  have hbias : ((Format.binary64.exponentBias : ℕ) : ℤ) = 1023 := by decide
  simp only [unpack, unpackMantissa_packComponents, unpackExponent_packComponents,
    unpackSign_packComponents, Sign.ofBitVec_toBitVec, toNat_append_fraction, hbias]
  split
  · rfl
  · split
    · next hzero => rw [hzero]; rfl
    · rfl

theorem exists_fields (x : Float) :
    ∃ (s : Sign) (E : BitVec 11) (M : BitVec 52),
      x.toModel.unpack = unpack Format.binary64 (packComponents Format.binary64 s E M) ∧
        (isNegative x = true ↔ s = .negative) ∧
          magnitude x = if E.toNat = 0 then ⟨M.toNat, -1074, false⟩
            else ⟨2 ^ 52 + M.toNat, (E.toNat : ℤ) - 1075, M.toNat == 0 && 1 < E.toNat⟩ := by
  refine ⟨_, @unpackExponent Format.binary64 x.toBits.toBitVec,
    @unpackMantissa Format.binary64 x.toBits.toBitVec, ?_, isNegative_iff x, ?_⟩
  · rw [packComponents_unpackSign_unpackExponent_unpackMantissa]
    rfl
  · rw [magnitude, Magnitude.ofBits, toNat_unpackExponent, toNat_unpackMantissa]
    rfl

end Decimal

end ScriptHost
