/-!
# Reading numbers and truth values

Which texts are integers of 64 bits, and which are truth values.
-/

namespace ScriptHost.Text

/-- The number that one or more decimal digits stand for. -/
def natural? (ds : List Char) : Option Nat :=
  if !ds.isEmpty && ds.all Char.isDigit then some (Nat.ofDigitChars 10 ds 0) else none

/-- The number that digits after at most one sign stand for. -/
def integer? : List Char → Option Int
  | '+' :: ds => (natural? ds).map Int.ofNat
  | '-' :: ds => (natural? ds).map fun n => -(n : Int)
  | ds => (natural? ds).map Int.ofNat

/-- The integer that a text stands for, if 64 bits can hold it. -/
def int64? (s : String) : Option Int64 :=
  match integer? s.toList with
  | some n =>
    if -0x8000000000000000 ≤ n ∧ n < 0x8000000000000000 then some (Int64.ofInt n) else none
  | none => none

/-- The truth value that a text stands for. -/
def bool? (s : String) : Option Bool :=
  if s ∈ ["1", "t", "T", "true", "TRUE", "True"] then some true
  else if s ∈ ["0", "f", "F", "false", "FALSE", "False"] then some false
  else none

end ScriptHost.Text
