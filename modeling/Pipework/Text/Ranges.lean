set_option autoImplicit false

/-! # Ranges of code points

A set of characters is written as a list of ranges of code points, both ends included. -/

namespace Pipework.Text

/-- Some range of `ranges` holds the code point of `c`. -/
def inRanges (ranges : List (Nat × Nat)) (c : Char) : Bool :=
  ranges.any fun (lo, hi) => lo ≤ c.toNat && c.toNat ≤ hi

end Pipework.Text
