import ScriptHost.Decimal.Magnitude
/-!
# A fixed number of decimal places

The exact size of a number is rounded to a given number of decimal places.
Half a unit goes to the even neighbour.
-/

namespace ScriptHost.Decimal

/-- The whole number nearest to `n / d`, and the even one of two. -/
def roundDiv (n d : Nat) : Nat :=
  let q := n / d
  match compare (2 * (n % d)) d with
  | .lt => q
  | .eq => if q % 2 = 0 then q else q + 1
  | .gt => q + 1

/-- `n` units of the last of `places` decimal places. -/
def placesText (places n : Nat) : List Char :=
  let ds := Nat.toDigits 10 n
  if places = 0 then ds
  else
    let ds := List.replicate (places + 1 - ds.length) '0' ++ ds
    ds.take (ds.length - places) ++ '.' :: ds.drop (ds.length - places)

/-- The size of a finite number with the given number of places behind the point. -/
def Magnitude.toPlaces (places : Nat) (x : Magnitude) : String :=
  String.ofList (placesText places (roundDiv (x.numerator (-places)) (x.denominator (-places))))

end ScriptHost.Decimal
