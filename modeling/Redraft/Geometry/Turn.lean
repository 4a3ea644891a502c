import Redraft.Geometry.Point

/-!
# Turns

A placed symbol is turned by a multiple of ninety degrees and may be flipped.
Turns are counter-clockwise as seen on the sheet, where Y points down.
-/

namespace Redraft

/-- A turn by a multiple of ninety degrees. -/
inductive Turn where
  | zero
  | quarter
  | half
  | threeQuarters
deriving DecidableEq, Repr, Inhabited

namespace Turn

/-- The turn in degrees. -/
def degrees : Turn → Int
  | zero => 0
  | quarter => 90
  | half => 180
  | threeQuarters => 270

/-- The turn of exactly this many degrees. -/
def ofDegrees? (n : Int) : Option Turn :=
  if n = 0 then some zero
  else if n = 90 then some quarter
  else if n = 180 then some half
  else if n = 270 then some threeQuarters
  else none

/-- A displacement after the turn. -/
def apply : Turn → Point → Point
  | zero, p => p
  | quarter, p => ⟨p.y, -p.x⟩
  | half, p => ⟨-p.x, -p.y⟩
  | threeQuarters, p => ⟨-p.y, p.x⟩

theorem ofDegrees?_degrees (t : Turn) : ofDegrees? t.degrees = some t := by
  cases t <;> decide

end Turn

/-- A flip about one axis, or none. -/
inductive Flip where
  | plain
  | aboutY
  | aboutX
deriving DecidableEq, Repr, Inhabited

/-- A displacement after the flip. -/
def Flip.apply : Flip → Point → Point
  | plain, p => p
  | aboutY, p => ⟨-p.x, p.y⟩
  | aboutX, p => ⟨p.x, -p.y⟩

/-- Where and how a symbol stands on a sheet. -/
structure Placement where
  position : Point
  turn : Turn := .zero
  flip : Flip := .plain
deriving DecidableEq, Repr, Inhabited

/-- The sheet point of a library point: Y reversed, turned, flipped, moved. -/
def Placement.apply (placement : Placement) (p : Point) : Point :=
  placement.position + placement.flip.apply (placement.turn.apply p.flip)

end Redraft
