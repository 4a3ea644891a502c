/-!
# Ranges of characters

A class of characters is a list of ranges of code points, both ends included.
-/

namespace Redraft.Text

/-- Ranges of code points, first and last of each. -/
abbrev Ranges := List (Nat × Nat)

/-- The character lies in one of the ranges. -/
def Ranges.has (ranges : Ranges) (c : Char) : Bool :=
  ranges.any fun (first, last) => first ≤ c.toNat && c.toNat ≤ last

end Redraft.Text
