import Redraft.Number.Decimal

/-!
# Quantities

A quantity is given as a whole number, which stays exact, or as a binary one.
-/

namespace Redraft.Number

/-- A number as it is given: exact and whole, or binary. -/
inductive Quantity where
  | whole (n : Int)
  | real (x : Float)

namespace Quantity

/-- The quantity as a binary number. -/
def toFloat : Quantity → Float
  | whole n => ofInt n
  | real x => x

/-- The quantity in the form it was given. -/
def text : Quantity → String
  | whole n => toString n
  | real x => shortest x

/-- The quantity times a whole number, rounded to a whole number. -/
def scaled (factor : Int) : Quantity → Except NotFinite Int
  | whole n => .ok (n * factor)
  | real x => round (x * ofInt factor)

/-- The whole part, cut toward zero. -/
def wholePart : Quantity → Except NotFinite Int
  | whole n => .ok n
  | real x => truncate x

end Quantity

end Redraft.Number
