import ScriptHost.Decimal.Magnitude
import ScriptHost.Module
import ScriptHost.Signature
/-!
# The module `math`

Functions on floats. An integer is no float here: scripts convert between
them explicitly.
-/

namespace ScriptHost.Library.MathModule

def infinity : Float := Float.ofBits 0x7FF0000000000000

def trunc (x : Float) : Float :=
  if x < 0 then x.ceil else x.floor

/-- The float `2 ^ n`, as the reciprocal of `2 ^ -n` for negative `n`. It is zero where that is
infinite. -/
def twoPow (n : Int) : Float :=
  let power (k : Nat) : Float :=
    if k < 1024 then Float.ofBits (UInt64.ofNat ((k + 1023) <<< 52)) else infinity
  if 0 ≤ n then power n.toNat else 1 / power (-n).toNat

/-- Multiplies by `2 ^ n` in two steps of half the exponent each, so that small results do not
vanish on the way. Exponents are clamped to 32 bits. -/
def scale (x : Float) (n : Int64) : Float :=
  if x == 0 || !x.isFinite then x
  else
    let e := max (-0x80000000) (min n.toInt 0x7FFFFFFF)
    let half := e.tdiv 2
    x * twoPow half * twoPow (e - half)

/-- The float nearest to `m * 2 ^ q`. -/
def nearest (m : Nat) (q : Int) : Float :=
  if 0 ≤ q then Float.ofNat (m <<< q.toNat)
  else Float.ofScientific (m * Nat.pow 5 (-q).toNat) true (-q).toNat

/-- The length of the hypotenuse of a right triangle. The sum of the squares is exact, and its root
is taken to 64 binary places, with one place more for what is left over. -/
def hypot (x y : Float) : Float :=
  if x.isInf || y.isInf then infinity
  else if x.isNaN || y.isNaN then x + y
  else
    let a := Decimal.magnitude x
    let b := Decimal.magnitude y
    let q := min a.exponent b.exponent
    let side (c : Decimal.Magnitude) : Nat := c.mantissa <<< (c.exponent - q).toNat
    let square := (side a * side a + side b * side b) <<< 128
    let root := square.sqrt
    nearest (2 * root + if root * root = square then 0 else 1) (q - 65)

/-- Whether the number is infinite: upward if the sign is positive, downward if it is negative, and
either if it is zero. -/
def isInfinite (x : Float) (sign : Int64) : Bool :=
  (0 ≤ sign && x == infinity) || (sign ≤ 0 && x == -infinity)

def infinityOf (sign : Int64) : Float :=
  if 0 ≤ sign then infinity else -infinity

/-- Drops the fraction, and takes the nearest integer of 64 bits. It is zero for NaN. -/
def toInt (x : Float) : Int64 :=
  if x.isNaN then 0
  else
    let m := Decimal.magnitude x
    let n : Int := (m.numerator 0 / m.denominator 0 : Nat)
    let n := if Decimal.isNegative x then -n else n
    Int64.ofInt (max (-0x8000000000000000) (min n 0x7FFFFFFFFFFFFFFF))

def onFloat (f : Float → Float) : Callable :=
  Signature.lift ⟨[.float], .value (.native .float)⟩ fun (x, ()) => f x

def onFloats (f : Float → Float → Float) : Callable :=
  Signature.lift ⟨[.float, .float], .value (.native .float)⟩ fun (x, y, ()) => f x y

def test (p : Float → Bool) : Callable :=
  Signature.lift ⟨[.float], .value (.native .bool)⟩ fun (x, ()) => p x

def members : List Declaration :=
  [.constant "pi" (.float 3.141592653589793),
    .constant "e" (.float 2.718281828459045),
    .function "abs" (onFloat Float.abs),
    .function "ceil" (onFloat Float.ceil),
    .function "floor" (onFloat Float.floor),
    .function "round" (onFloat Float.round),
    .function "sqrt" (onFloat Float.sqrt),
    .function "trunc" (onFloat trunc),
    .function "pow" (onFloats Float.pow),
    .function "hypot" (onFloats hypot),
    .function "ldexp"
      (Signature.lift ⟨[.float, .int], .value (.native .float)⟩ fun (x, n, ()) => scale x n),
    .function "is_nan" (test Float.isNaN),
    .function "is_inf"
      (Signature.lift ⟨[.float, .int], .value (.native .bool)⟩ fun (x, n, ()) => isInfinite x n),
    .function "signbit" (test Decimal.isNegative),
    .function "inf"
      (Signature.lift ⟨[.int], .value (.native .float)⟩ fun (n, ()) => infinityOf n),
    .function "to_int"
      (Signature.lift ⟨[.float], .value (.native .int)⟩ fun (x, ()) => toInt x)]

end ScriptHost.Library.MathModule
