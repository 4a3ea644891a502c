import Redraft.Geometry.Point
import Redraft.Number.Binary

/-!
# Segments

A segment joins two points. Whether a point lies exactly on it is decided in
whole numbers (`hits`); how far a point is from it is a binary number
(`distance`), and points within one unit count as touching it (`touches`).
-/

namespace Redraft
open Redraft.Number

/-- A straight line from `a` to `b`. -/
structure Segment where
  a : Point
  b : Point
deriving DecidableEq, Repr, Inhabited

namespace Segment

/-- The displacement from the start to the end. -/
def direction (s : Segment) : Point := s.b - s.a

/-- The length of the segment. -/
def length (s : Segment) : Float := hypotInt s.direction.x s.direction.y

/-- Half of a whole number, cut toward zero. -/
def half (n : Int) : Int := (keepLeading n).tdiv 2

/-- The point halfway along the segment, cut toward the start. -/
def center (s : Segment) : Point :=
  ⟨s.a.x + half s.direction.x, s.a.y + half s.direction.y⟩

/-- The segment runs along the X axis. -/
def isHorizontal (s : Segment) : Bool := s.a.y == s.b.y && s.a.x != s.b.x

/-- The segment runs along the Y axis. -/
def isVertical (s : Segment) : Bool := s.a.x == s.b.x && s.a.y != s.b.y

/-- The signed area spanned by two displacements. -/
def cross (p q : Point) : Int := p.x * q.y - p.y * q.x

/-- The sum of the products of the coordinates of two displacements. -/
def dot (p q : Point) : Int := p.x * q.x + p.y * q.y

/-- The point lies on the segment. -/
def hits (s : Segment) (p : Point) : Bool :=
  cross s.direction (p - s.a) == 0 &&
    (min s.a.x s.b.x ≤ p.x && p.x ≤ max s.a.x s.b.x) &&
    (min s.a.y s.b.y ≤ p.y && p.y ≤ max s.a.y s.b.y)

/-- How far along the segment its point nearest to `p` lies, from zero to one. -/
def parameter (s : Segment) (p : Point) : Float :=
  let t := ofRatio (dot (p - s.a) s.direction) (dot s.direction s.direction).toNat
  if t < 0.0 then 0.0 else if t < 1.0 then t else 1.0

/-- The distance from a point to the nearest point of the segment. -/
def distance (s : Segment) (p : Point) : Float :=
  let d := s.direction
  let q := p - s.a
  if d = Point.origin then hypotInt q.x q.y
  else
    let t := s.parameter p
    hypot (ofInt q.x - t * ofInt d.x) (ofInt q.y - t * ofInt d.y)

/-- The point is within one unit of the segment. -/
def touches (s : Segment) (p : Point) : Bool := s.distance p ≤ 1.0

/-- The point lies on the segment, or within a tolerance other than zero. -/
def hitsWithin (s : Segment) (tolerance : Float) (p : Point) : Bool :=
  if tolerance == 0.0 then s.hits p else s.distance p ≤ tolerance

end Segment

/-- A displacement scaled to a length, rounded in each coordinate. -/
def Point.resize (v : Point) (length : Int) : Except NotFinite Point := do
  let norm := hypotInt v.x v.y
  if norm == 0.0 then return Point.origin
  return ⟨← round (ofInt (v.x * length) / norm), ← round (ofInt (v.y * length) / norm)⟩

end Redraft
