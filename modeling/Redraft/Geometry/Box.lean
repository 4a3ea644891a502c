import Redraft.Geometry.Point

/-!
# Boxes

A box is an upright rectangle. An extent is the box of the points merged so
far, and is empty before the first one.
-/

namespace Redraft

/-- An upright rectangle. -/
@[ext] structure Box where
  left : Int
  top : Int
  right : Int
  bottom : Int
  wide : left ≤ right := by omega
  tall : top ≤ bottom := by omega
deriving DecidableEq, Repr

namespace Box

/-- The box of one point. -/
def ofPoint (p : Point) : Box := ⟨p.x, p.y, p.x, p.y, Int.le_refl _, Int.le_refl _⟩

/-- The box widened to hold a point. -/
def merge (b : Box) (p : Point) : Box where
  left := min b.left p.x
  top := min b.top p.y
  right := max b.right p.x
  bottom := max b.bottom p.y
  wide := by have := b.wide; omega
  tall := by have := b.tall; omega

/-- The corner of least coordinates. -/
def topLeft (b : Box) : Point := ⟨b.left, b.top⟩

/-- The corner of greatest coordinates. -/
def bottomRight (b : Box) : Point := ⟨b.right, b.bottom⟩

/-- The extent of the box along X. -/
def width (b : Box) : Int := b.right - b.left

/-- The extent of the box along Y. -/
def height (b : Box) : Int := b.bottom - b.top

/-- The middle of the box, cut toward its top left corner. -/
def center (b : Box) : Point := ⟨b.left + b.width / 2, b.top + b.height / 2⟩

/-- The point lies in the box. -/
def Holds (b : Box) (p : Point) : Prop :=
  b.left ≤ p.x ∧ p.x ≤ b.right ∧ b.top ≤ p.y ∧ p.y ≤ b.bottom

instance (b : Box) (p : Point) : Decidable (b.Holds p) := by
  unfold Holds
  infer_instance

end Box

/-- The box of the points merged so far, if any. -/
abbrev Extent := Option Box

namespace Extent

/-- The extent with one more point. -/
def merge (e : Extent) (p : Point) : Extent :=
  some (match e with
    | none => Box.ofPoint p
    | some b => b.merge p)

/-- The extent with the two outer corners of another one. -/
def mergeBox (e other : Extent) : Extent :=
  match other with
  | none => e
  | some b => (e.merge b.topLeft).merge b.bottomRight

/-- The extent of a list of points. -/
def ofPoints (ps : List Point) : Extent := ps.foldl merge none

/-- The extent along X, zero if empty. -/
def width (e : Extent) : Int := e.elim 0 Box.width

/-- The extent along Y, zero if empty. -/
def height (e : Extent) : Int := e.elim 0 Box.height

/-- The middle of the extent, the origin if empty. -/
def center (e : Extent) : Point := e.elim Point.origin Box.center

end Extent

end Redraft
