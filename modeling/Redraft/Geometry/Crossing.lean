import Redraft.Geometry.Segment

/-!
# Crossings

Two segments that are not parallel cross in at most one point. Where it lies
along each of them is a quotient of signed areas; the crossing itself is
rounded to whole coordinates, a half away from zero.
-/

namespace Redraft.Segment
open Redraft.Number

/-- The quotient `n / d` lies between zero and one. -/
def withinUnit (n d : Int) : Bool :=
  if 0 < d then 0 ≤ n && n ≤ d else d ≤ n && n ≤ 0

/-- The crossing of two segments; `inner` leaves out one at an end of both. -/
def crossing (s t : Segment) (inner : Bool) : Option Point :=
  let e := s.direction
  let f := t.direction
  let between := t.a - s.a
  let d := cross f e
  let p := cross f between
  let q := cross e between
  if d = 0 then none
  else if !(withinUnit p d && withinUnit q d) then none
  else if inner && (q == 0 || q == d) && (p == 0 || p == d) then none
  else some ⟨t.a.x + halfAway (q * f.x) d, t.a.y + halfAway (q * f.y) d⟩

end Redraft.Segment
