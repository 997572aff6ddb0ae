/-!
# The exact size of a binary64 number

A finite binary64 number is a sign and a size `mantissa * 2 ^ exponent`. All
decimal texts of floats are computed from that size in exact arithmetic.
-/

namespace ScriptHost.Decimal

/-- A number `mantissa * 2 ^ exponent`. -/
structure Magnitude where
  mantissa : Nat
  exponent : Int
  /-- Whether the next smaller number is half as far away as the next larger one. This is so
  at the powers of two. -/
  narrowBelow : Bool
deriving DecidableEq, Repr

namespace Magnitude

/-- The size in the bits of a finite number. -/
def ofBits (bits : UInt64) : Magnitude :=
  let biased := ((bits >>> 52) &&& 0x7FF).toNat
  let fraction := (bits &&& 0xFFFFFFFFFFFFF).toNat
  if biased = 0 then ⟨fraction, -1074, false⟩
  else ⟨0x10000000000000 + fraction, (biased : Int) - 1075, fraction == 0 && 1 < biased⟩

def isZero (x : Magnitude) : Bool :=
  x.mantissa == 0

/-- The numerator of the number as a fraction over `denominator g`, counted in units of
`10 ^ g`. -/
def numerator (x : Magnitude) (g : Int) : Nat :=
  (x.mantissa * Nat.pow 10 (-g).toNat) <<< x.exponent.toNat

/-- The denominator that belongs to `numerator g`. -/
def denominator (x : Magnitude) (g : Int) : Nat :=
  Nat.pow 10 g.toNat <<< (-x.exponent).toNat

end Magnitude

def isNegative (x : Float) : Bool :=
  x.toBits >>> 63 == 1

def magnitude (x : Float) : Magnitude :=
  .ofBits x.toBits

end ScriptHost.Decimal
