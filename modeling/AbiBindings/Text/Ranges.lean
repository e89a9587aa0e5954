/-!
# Sets of characters

A property of characters is given by the ranges of code points that have it.
-/

namespace AbiBindings.Text

/-- Whether a range of the list holds the code point `n`; both ends of a range
belong to it. -/
def inRanges (ranges : List (Nat × Nat)) (n : Nat) : Bool :=
  ranges.any fun (first, last) => first ≤ n && n ≤ last

end AbiBindings.Text
