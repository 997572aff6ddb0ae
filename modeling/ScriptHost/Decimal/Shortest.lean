import ScriptHost.Decimal.Magnitude
/-!
# The shortest decimal that reads back

A decimal reads back as a binary64 number when no other number is nearer to
it, or when it lies half-way and the number has an even mantissa. Of all
decimals that read back the shortest is chosen, of several the nearest, and
of two equally near ones the larger.
-/

namespace ScriptHost.Decimal

/-- The decimal `digits * 10 ^ exponent`. -/
structure Numeral where
  digits : Nat
  exponent : Int
deriving DecidableEq, Repr

/-- Compares `a * 10 ^ i` with `b * 2 ^ j`. -/
def compareScaled (a : Nat) (i : Int) (b : Nat) (j : Int) : Ordering :=
  compare ((a * Nat.pow 10 i.toNat) <<< (-j).toNat) ((b * Nat.pow 10 (-i).toNat) <<< j.toNat)

namespace Magnitude

/-- Whether a decimal lies between the half-way points to the two neighbours. The half-way
points themselves belong to the number with the even mantissa. -/
def readsBack (x : Magnitude) (d : Numeral) : Bool :=
  let low := if x.narrowBelow then 4 * x.mantissa - 1 else 4 * x.mantissa - 2
  let high := 4 * x.mantissa + 2
  let ends := x.mantissa % 2 == 0
  let above := compareScaled d.digits d.exponent low (x.exponent - 2)
  let below := compareScaled d.digits d.exponent high (x.exponent - 2)
  (above == .gt || ends && above == .eq) && (below == .lt || ends && below == .eq)

/-- An exponent of ten that the number is not below by more than three. -/
def scaleEstimate (x : Magnitude) : Int :=
  (((x.mantissa.log2 : Int) + x.exponent) * 30103).fdiv 100000 - 1

/-- The least `k` such that a number other than zero is smaller than `10 ^ k`. -/
def scale (x : Magnitude) : Int :=
  let k := x.scaleEstimate
  let isAbove (i : Nat) : Bool := compareScaled 1 (k + i) x.mantissa x.exponent == .gt
  match (List.range 4).find? isAbove with
  | some i => k + i
  | none => k + 4

/-- The decimal on the grid of the multiples of `10 ^ g` that reads back and is nearest, if the
number has a neighbour on the grid that reads back. -/
def onGrid? (x : Magnitude) (g : Int) : Option Numeral :=
  let n := x.numerator g
  let d := x.denominator g
  let below : Numeral := ⟨n / d, g⟩
  let above : Numeral := ⟨n / d + 1, g⟩
  match x.readsBack below, x.readsBack above with
  | true, true => some (if 2 * n < (2 * (n / d) + 1) * d then below else above)
  | true, false => some below
  | false, true => some above
  | false, false => none

/-- The number itself, written out in full. -/
def exactNumeral (x : Magnitude) : Numeral :=
  if x.exponent < 0 then ⟨x.mantissa * Nat.pow 5 (-x.exponent).toNat, x.exponent⟩
  else ⟨x.mantissa <<< x.exponent.toNat, 0⟩

/-- The shortest decimal of a number other than zero. Seventeen digits are always enough. -/
def shortest (x : Magnitude) : Numeral :=
  match (List.range 17).findSome? fun i : Nat => x.onGrid? (x.scale - (i + 1)) with
  | some d => d
  | none => x.exactNumeral

end Magnitude

/-- Moves the zeros at the end of the digits into the exponent. -/
def Numeral.trim (d : Numeral) : Numeral :=
  if h : d.digits ≠ 0 ∧ d.digits % 10 = 0 then
    trim ⟨d.digits / 10, d.exponent + 1⟩
  else d
termination_by d.digits
decreasing_by omega

end ScriptHost.Decimal
