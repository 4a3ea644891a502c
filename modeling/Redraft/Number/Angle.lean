import Redraft.Number.Binary

/-!
# Angles

The sine, cosine and tangent of an angle, and the angle of a vector. They are
found in fixed point, with so many more binary places than a binary number
keeps that the result is rounded once.
-/

namespace Redraft.Number

/-- How many binary places a number in fixed point has. -/
def fixedPlaces : Nat := 192

/-- One in fixed point. -/
def fixedOne : Nat := twoTo fixedPlaces

/-! ## Series -/

/-- The sum `t / k - t' / (k + 2) + t'' / (k + 4) - …` of so many powers, each made from the one before. -/
def arctanSeries (next : Int → Int) : Nat → Int → Int → Int
  | 0, _, _ => 0
  | n + 1, power, k => power / k - arctanSeries next n (next power) (k + 2)

/-- The sum `t - t' + t'' - …` of so many terms, each the one before times `square / ((k + 1) * (k + 2))`. -/
def circularSeries (square : Int) : Nat → Int → Int → Int
  | 0, _, _ => 0
  | n + 1, term, k =>
    term - circularSeries square n (term * square / fixedOne / ((k + 1) * (k + 2))) (k + 2)

/-- The angle of half a circle with `p` binary places, from the arctangents of a fifth and of one in 239. -/
def halfCircle (p : Nat) : Int :=
  let arctanOfPart := fun n : Int => arctanSeries (· / (n * n)) (p / 4 + 1) (twoTo p / n) 1
  4 * (4 * arctanOfPart 5 - arctanOfPart 239)

/-! ## Sine, cosine and tangent -/

/-- The right angles in the angle `m * 2 ^ e`, and the rest, which is no more than half a right angle to
    either side. The larger the angle, the more places of a right angle are needed. -/
def rightAngles (m : Nat) (e : Int) : Int × Int :=
  let more := (e + 80).toNat
  let right := halfCircle (fixedPlaces + more) / 2
  let shift := e + fixedPlaces + more
  let angle : Int := m * twoTo shift.toNat / twoTo (-shift).toNat
  let count := (2 * angle + right) / (2 * right)
  (count, (angle - count * right) / twoTo more)

/-- The cosine and the sine of the angle `m * 2 ^ e`. -/
def circular (m : Nat) (e : Int) : Int × Int :=
  let (count, rest) := rightAngles m e
  let square := rest * rest / fixedOne
  let cosine := circularSeries square 32 fixedOne 0
  let sine := circularSeries square 32 rest 1
  match count % 4 with
  | 0 => (cosine, sine)
  | 1 => (-sine, cosine)
  | 2 => (-cosine, -sine)
  | _ => (sine, -cosine)

/-- The angle is so small that it is its own sine and tangent. -/
def isSlight (m : Nat) (e : Int) : Bool := m = 0 || (m.log2 : Int) + e < -28

/-- What has no value. -/
def undefinedNumber : Float := Float.ofBits (UInt64.ofNat (4095 * twoTo 51))

/-- A leg of a right triangle with a hypotenuse of one. No binary number but zero is so near to a whole number
    of right angles that a leg of it is shorter than `2 ^ -64`. -/
def leg (n : Int) : Nat := max (min n.natAbs fixedOne) (twoTo (fixedPlaces - 64))

/-- The sine of an angle in radians. -/
def sin (x : Float) : Float :=
  match parts x with
  | .finite negative m e =>
    if isSlight m e then x
    else
      let s := (circular m e).2
      ofSignedRatio (negative != decide (s < 0)) (leg s) fixedOne
  | _ => undefinedNumber

/-- The cosine of an angle in radians. -/
def cos (x : Float) : Float :=
  match parts x with
  | .finite _ m e =>
    if isSlight m e then 1.0
    else
      let c := (circular m e).1
      ofSignedRatio (c < 0) (leg c) fixedOne
  | _ => undefinedNumber

/-- The tangent of an angle in radians. -/
def tan (x : Float) : Float :=
  match parts x with
  | .finite negative m e =>
    if isSlight m e then x
    else
      let (c, s) := circular m e
      ofSignedRatio (negative != (decide (s < 0) != decide (c < 0))) (leg s) (leg c)
  | _ => undefinedNumber

/-! ## Angles of vectors -/

/-- The angle with a tangent from zero to one. -/
def arctan (t : Int) : Int :=
  -- half an angle has so much smaller a tangent that the series is short
  let half := fun t : Int => t * fixedOne / (fixedOne + sqrtFloor (fixedOne * fixedOne + t.natAbs * t.natAbs))
  let t := half (half (half t))
  let square := t * t / fixedOne
  8 * arctanSeries (fun power => power * square / fixedOne) 32 t 1

/-- An angle of no more than half a circle. -/
def ofAngle (negative : Bool) (angle : Int) : Float :=
  ofSignedRatio negative (min angle.natAbs (4 * fixedOne)) fixedOne

/-- The angle in radians from the positive axis to the vector of two coordinates. -/
def atan2 (y x : Float) : Float :=
  let half := halfCircle fixedPlaces
  match parts y, parts x with
  | .undefined, _ | _, .undefined => undefinedNumber
  | .infinite down, .infinite back => ofAngle down (if back then 3 * half / 4 else half / 4)
  | .infinite down, .finite .. => ofAngle down (half / 2)
  | .finite down _ _, .infinite back => ofAngle down (if back then half else 0)
  | .finite down m e, .finite back n f =>
    let low := min e f
    let a := m * twoTo (e - low).toNat
    let b := n * twoTo (f - low).toNat
    if !back && a * twoTo 28 < b then ofSignedRatio down a b
    else
      let acute := if a ≤ b then arctan (a * fixedOne / b) else half / 2 - arctan (b * fixedOne / a)
      ofAngle down (if back then half - acute else acute)

end Redraft.Number
