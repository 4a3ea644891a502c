import Redraft.Failure
import Redraft.Geometry.Turn
import Redraft.Number.Angle

/-!
# Arcs and free angles

The centre of an arc over a chord, and rotation by any angle. Both are computed
in binary numbers; a right angle turns a point exactly.
-/

namespace Redraft
open Redraft.Number

/-- Half of the circle's circumference over its diameter, as a binary number. -/
def pi : Float := 3.141592653589793

/-- Degrees as radians. -/
def radians (degrees : Float) : Float := degrees * (pi / 180.0)

/-- A quotient, unless the divisor is zero. -/
def divide (x y : Float) : Except Failure Float :=
  if y == 0.0 then .error .divisionByZero else .ok (x / y)

/-- The tangent of a finite angle. -/
def tangent (x : Float) : Except Failure Float :=
  match parts x with
  | .infinite _ => .error .outOfDomain
  | _ => .ok (tan x)

/-- The centre of the arc from `start` to `stop` that sweeps `angle` degrees,
    counter-clockwise with Y up. -/
def arcCenter (start stop : Point) (angle : Quantity) : Except Failure (Float × Float) := do
  let dx := stop.x - start.x
  let dy := stop.y - start.y
  let chord := hypotInt dx dy
  if chord == 0.0 || angle.toFloat == 0.0 then throw (.noArcCenter start stop angle)
  let midX := ofInt (start.x + stop.x) / 2.0
  let midY := ofInt (start.y + stop.y) / 2.0
  let rise ← divide chord (2.0 * (← tangent (radians angle.toFloat / 2.0)))
  return (midX - rise * ofInt dy / chord, midY + rise * ofInt dx / chord)

/-- The binary number nearest to `x` rounded to ten decimal places. -/
def roundTenPlaces (x : Float) : Float :=
  match parts x with
  | .finite negative m e =>
    let scaled := halfEven (m * twoTo e.toNat * tenTo 10 : Nat) (twoTo (-e).toNat)
    ofSignedRatio negative scaled.toNat (tenTo 10)
  | _ => x

/-- The turn by a whole number of right angles, of any number of rounds. -/
def Turn.ofQuantity? : Quantity → Option Turn
  | .whole n => Turn.ofDegrees? (n % 360)
  | .real x => do
    let n ← (truncate x).toOption
    if ofInt n == x then Turn.ofDegrees? (n % 360) else none

/-- The point rotated about the origin, counter-clockwise with Y down. -/
def Point.rotate (p : Point) (angle : Quantity) : Except Failure Point :=
  match Turn.ofQuantity? angle with
  | some turn => .ok (turn.apply p)
  | none => do
    let rad := radians angle.toFloat
    let cosine := roundTenPlaces (cos rad)
    let sine := roundTenPlaces (sin rad)
    let whole := fun x => (round x).mapError Failure.notFinite
    return ⟨← whole (cosine * ofInt p.x + sine * ofInt p.y),
      ← whole ((-sine) * ofInt p.x + cosine * ofInt p.y)⟩

/-- The sheet point of a library point placed at any angle. -/
def Point.toSheet (p position : Point) (angle : Quantity) (flip : Flip) : Except Failure Point := do
  return position + flip.apply (← p.flip.rotate angle)

end Redraft
