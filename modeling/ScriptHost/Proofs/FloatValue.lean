import ScriptHost.Proofs.FloatBits
/-!
# The number that a float stands for

The bits of a finite float other than zero are read as a sign, a mantissa and
an exponent. Each such float has one mantissa and one exponent, the canonical
ones, and all canonical ones with both signs are those of a float.
-/

namespace ScriptHost.Decimal

open Float.Model (Format UnpackedFloat)
open Float.Model.UnpackedFloat

/-- The number that a float stands for, if it is finite. -/
def value? (x : Float) : Option ℚ :=
  if x.isFinite then
    some ((if isNegative x then -1 else 1) *
      ((magnitude x).mantissa * 2 ^ (magnitude x).exponent))
  else none

/-- A mantissa and an exponent that a float can have. The mantissa takes up all of its bits, unless
the exponent is the least there is. -/
structure Canonical (m : ℕ) (e : ℤ) : Prop where
  pos : 0 < m
  lt : m < 2 ^ 53
  least : -1074 ≤ e
  greatest : e ≤ 971
  full : 2 ^ 52 ≤ m ∨ e = -1074

variable {x y : Float} {s : Sign} {m : ℕ} {e : ℤ} {hm : 0 < m} {q : ℚ}

/-! ### Sign, mantissa and exponent -/

/-- A float has no finite value, is a zero, or has canonical parts, which both readings of its bits
show. -/
theorem unpack_cases (x : Float) :
    x.isFinite = false ∨
      (∃ s, x.toModel.unpack = .zero s ∧ (magnitude x).mantissa = 0) ∨
        ∃ (s : Sign) (m : ℕ) (e : ℤ) (hme : Canonical m e),
          x.toModel.unpack = .finite s m e hme.pos ∧ (isNegative x = true ↔ s = .negative) ∧
            (magnitude x).mantissa = m ∧ (magnitude x).exponent = e := by
  obtain ⟨s, E, M, hunpack, hsign, hmagnitude⟩ := exists_fields x
  have hE : E.toNat < 2 ^ 11 := E.isLt
  have hM : M.toNat < 2 ^ 52 := M.isLt
  change x.toModel.unpack.isFinite = false ∨ _
  rw [hunpack, hmagnitude, unpack_packComponents]
  by_cases hlast : E = -1#11
  · rw [if_pos hlast]
    split <;> exact .inl rfl
  · have hlast' : E.toNat ≠ 2047 := fun h => hlast (BitVec.eq_of_toNat_eq h)
    rw [if_neg hlast]
    by_cases hfirst : E = 0#11
    · subst hfirst
      rw [if_pos rfl, if_pos (show (0#11).toNat = 0 from rfl)]
      by_cases hfraction : M = 0#52
      · subst hfraction
        exact .inr (.inl ⟨s, rfl, rfl⟩)
      · have hpos : M.toNat ≠ 0 := fun h => hfraction (BitVec.eq_of_toNat_eq h)
        have hme : Canonical M.toNat (-1074) :=
          ⟨by omega, by omega, by omega, by omega, .inr rfl⟩
        rw [dif_neg hfraction]
        exact .inr (.inr ⟨s, _, _, hme, rfl, hsign, rfl, rfl⟩)
    · have hfirst' : E.toNat ≠ 0 := fun h => hfirst (BitVec.eq_of_toNat_eq h)
      have hme : Canonical (2 ^ 52 + M.toNat) (E.toNat - 1075) :=
        ⟨by omega, by omega, by omega, by omega, .inl (by omega)⟩
      rw [if_neg hfirst, if_neg hfirst']
      exact .inr (.inr ⟨s, _, _, hme, rfl, hsign, rfl, rfl⟩)

theorem value?_of_parts (hunpack : x.toModel.unpack = .finite s m e hm)
    (hsign : isNegative x = true ↔ s = .negative) (hmantissa : (magnitude x).mantissa = m)
    (hexponent : (magnitude x).exponent = e) :
    value? x = some (((s.apply m : ℤ) : ℚ) * 2 ^ e) := by
  have hfinite : x.isFinite = true := by
    change x.toModel.unpack.isFinite = true
    rw [hunpack]
    rfl
  rw [value?, if_pos hfinite, hmantissa, hexponent]
  cases s with
  | negative =>
    rw [if_pos (hsign.2 rfl), Sign.apply, Int.cast_neg, Int.cast_natCast, neg_mul, neg_mul, one_mul]
  | positive => rw [if_neg (mt hsign.1 Sign.noConfusion), Sign.apply, Int.cast_natCast, one_mul]

theorem value?_of_unpack (hx : x.toModel.unpack = .finite s m e hm) :
    value? x = some (((s.apply m : ℤ) : ℚ) * 2 ^ e) := by
  rcases unpack_cases x with hnot | ⟨t, hzero, -⟩ |
    ⟨t, n, f, hnf, hunpack, hsign, hmantissa, hexponent⟩
  · change x.toModel.unpack.isFinite = false at hnot
    rw [hx] at hnot
    cases hnot
  · rw [hx] at hzero
    cases hzero
  · obtain ⟨rfl, rfl, rfl⟩ := UnpackedFloat.finite.inj (hunpack.symm.trans hx)
    exact value?_of_parts hunpack hsign hmantissa hexponent

theorem isFinite_of_value? (hx : value? x = some q) : x.isFinite = true := by
  by_contra hnot
  rw [value?, if_neg hnot] at hx
  cases hx

/-- A number other than zero is given by the sign and the canonical parts of its float. -/
theorem exists_unpack_of_value? (hx : value? x = some q) (hq : q ≠ 0) :
    ∃ (s : Sign) (m : ℕ) (e : ℤ) (hme : Canonical m e),
      x.toModel.unpack = .finite s m e hme.pos ∧ q = ((s.apply m : ℤ) : ℚ) * 2 ^ e := by
  have hfinite := isFinite_of_value? hx
  rcases unpack_cases x with hnot | ⟨s, -, hmantissa⟩ | ⟨s, m, e, hme, hunpack, -, -, -⟩
  · rw [hfinite] at hnot
    cases hnot
  · rw [value?, if_pos hfinite, hmantissa, Nat.cast_zero, zero_mul, mul_zero] at hx
    exact absurd (Option.some.inj hx).symm hq
  · rw [value?_of_unpack hunpack] at hx
    exact ⟨s, m, e, hme, hunpack, (Option.some.inj hx).symm⟩

/-- Every sign and all canonical parts are those of a float. -/
theorem exists_unpack_eq (s : Sign) (hme : Canonical m e) :
    ∃ x : Float, x.toModel.unpack = .finite s m e hme.pos := by
  refine ⟨⟨.pack (.finite s m e hme.pos)⟩, ?_⟩
  change unpack Format.binary64 (pack Format.binary64 (.finite s m e hme.pos)) = _
  have hbits : Format.binary64.mantissaBits = 53 := by decide
  have hexponent :
      (e + (Format.binary64.exponentBias : ℕ) + (52 : ℕ)).toNat = (e + 1075).toNat := by
    have hbias : ((Format.binary64.exponentBias : ℕ) : ℤ) = 1023 := by decide
    omega
  obtain ⟨hpos, hlt, hleast, hgreatest, hfull⟩ := hme
  have hE : (BitVec.ofNat 11 (e + 1075).toNat).toNat = (e + 1075).toNat :=
    Nat.mod_eq_of_lt (by omega)
  simp only [pack, hexponent, hbits]
  rw [if_neg (by omega)]
  by_cases hnormal : 2 ^ 52 ≤ m
  · have hlog : m.log2 = 52 := (Nat.log2_eq_iff (by omega)).2 ⟨hnormal, hlt⟩
    have hM : (BitVec.ofNat 52 m).toNat = m - 2 ^ 52 := by
      rw [BitVec.toNat_ofNat]
      omega
    have hfinite : BitVec.ofNat 11 (e + 1075).toNat ≠ -1#11 :=
      mt (congrArg BitVec.toNat) (by rw [hE]; change _ ≠ 2047; omega)
    have hnonzero : BitVec.ofNat 11 (e + 1075).toNat ≠ 0#11 :=
      mt (congrArg BitVec.toNat) (by rw [hE]; change _ ≠ 0; omega)
    rw [if_pos (by omega), unpack_packComponents, if_neg hfinite, if_neg hnonzero]
    congr 1
    · omega
    · omega
  · have hlog : m.log2 < 52 := (Nat.log2_lt (by omega)).2 (by omega)
    have hM : (BitVec.ofNat 52 m).toNat = m := Nat.mod_eq_of_lt (by omega)
    have hnonzero : BitVec.ofNat 52 m ≠ 0#52 :=
      mt (congrArg BitVec.toNat) (by rw [hM]; change _ ≠ 0; omega)
    rw [if_neg (by omega), unpack_packComponents, if_neg (by decide), if_pos rfl, dif_neg hnonzero]
    congr 1
    exact (hfull.resolve_left hnormal).symm

end ScriptHost.Decimal
