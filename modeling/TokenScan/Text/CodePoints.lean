/-!
Sets of characters given by ranges of code points, the form in which the standards publish
character properties.
-/

namespace TokenScan.Text

/-- Inclusive ranges of code points. -/
abbrev CodePoints := List (Nat × Nat)

def CodePoints.contains (ranges : CodePoints) (c : Char) : Bool :=
  ranges.any fun (low, high) => low ≤ c.toNat && c.toNat ≤ high

end TokenScan.Text
