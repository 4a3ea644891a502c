import Redraft.Units

/-!
# Places of sheet blocks

The blocks of the sheets stand on the root sheet in rows of five, two pitches
apart in each direction.
-/

namespace Redraft

/-- How many blocks stand in a row. -/
def blocksInRow : Nat := 5

/-- The place of a block, counted from zero. -/
def blockPlace (n : Nat) : Point :=
  ⟨(2 * (n % blocksInRow) + 1 : Nat) * blockPitch, (2 * (n / blocksInRow) + 1 : Nat) * blockPitch⟩

/-- The places of the first blocks. -/
def blockPlaces (count : Nat) : List Point := (List.range count).map blockPlace

end Redraft
