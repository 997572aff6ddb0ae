import ScriptHost.Decimal.Shortest
/-!
# Writing floats

The two texts of a float. Both show the shortest digits that read back. One
never uses an exponent; the other always shows a fraction or an exponent, so
that a float cannot be taken for an integer.
-/

namespace ScriptHost.Decimal

/-- How the digits of a float are set out. -/
structure Layout where
  /-- The exponents of the leading digit that are written without an exponent: at least the
  first and less than the second. All of them, if there are no bounds. -/
  positional : Option (Int × Int)
  wholeFraction : Bool

namespace Layout

/-- Never an exponent, and whole numbers without a fraction. -/
def plain : Layout where
  positional := none
  wholeFraction := false

/-- An exponent from `1e16` on and below `1e-4`, and whole numbers with a fraction. -/
def explicit : Layout where
  positional := some (-4, 16)
  wholeFraction := true

/-- Digits with the decimal point after the first `point` of them. The point may lie before or
behind the digits. -/
def positionalText (style : Layout) (ds : List Char) (point : Int) : List Char :=
  if point ≤ 0 then
    '0' :: '.' :: (List.replicate (-point).toNat '0' ++ ds)
  else if point < ds.length then
    ds.take point.toNat ++ '.' :: ds.drop point.toNat
  else
    ds ++ List.replicate (point.toNat - ds.length) '0' ++
      if style.wholeFraction then ['.', '0'] else []

/-- One digit, the others after a point, and the exponent of the first. -/
def scientificText (ds : List Char) (exponent : Int) : List Char :=
  ds.take 1 ++ (if ds.length ≤ 1 then [] else '.' :: ds.drop 1) ++ 'e' :: (toString exponent).toList

def magnitudeText (style : Layout) (x : Magnitude) : List Char :=
  if x.isZero then
    '0' :: if style.wholeFraction then ['.', '0'] else []
  else
    let d := x.shortest.trim
    let ds := Nat.toDigits 10 d.digits
    let point := d.exponent + ds.length
    match style.positional with
    | none => style.positionalText ds point
    | some (low, high) =>
      if low ≤ point - 1 ∧ point - 1 < high then style.positionalText ds point
      else scientificText ds (point - 1)

/-- The text of a float. The sign of a zero is kept. -/
def text (style : Layout) (x : Float) : String :=
  if x.isNaN then "NaN"
  else
    let size := if x.isInf then ['i', 'n', 'f'] else style.magnitudeText (magnitude x)
    String.ofList (if isNegative x then '-' :: size else size)

end Layout

end ScriptHost.Decimal
