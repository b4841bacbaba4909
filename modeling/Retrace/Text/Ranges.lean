/-!
# Ranges of code points

A class of characters given as a table of inclusive ranges.
-/

namespace Retrace.Text

def inRanges (ranges : List (Nat × Nat)) (character : Char) : Bool :=
  ranges.any fun (first, last) => decide (first ≤ character.toNat) && decide (character.toNat ≤ last)

end Retrace.Text
