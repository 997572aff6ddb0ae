/-!
# Sets of characters as ranges of code points
-/

namespace ScriptHost.Unicode

/-- Whether a character lies in one of the given ranges, ends included. -/
def inRanges (ranges : List (Nat × Nat)) (c : Char) : Bool :=
  ranges.any fun (first, last) => first ≤ c.toNat && c.toNat ≤ last

end ScriptHost.Unicode
