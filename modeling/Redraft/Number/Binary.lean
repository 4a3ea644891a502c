import Redraft.Number.Rounding

/-!
# Binary numbers

A `Float` taken apart into sign, significand and exponent, the `Float` nearest
to a quotient of whole numbers, and the operations on lengths that are rounded
only once: `hypot` takes the square root of an exact sum of squares.
-/

namespace Redraft.Number

/-- A binary number taken apart; a finite one is `± significand * 2 ^ exponent`. -/
inductive Parts where
  | finite (negative : Bool) (significand : Nat) (exponent : Int)
  | infinite (negative : Bool)
  | undefined
deriving DecidableEq, Repr

/-- Why a binary number has no whole part. -/
inductive NotFinite where
  | undefined
  | infinite
deriving DecidableEq, Repr

/-- The parts of a binary number, read from its sixty-four bits. -/
def parts (x : Float) : Parts :=
  let bits := x.toBits.toNat
  let negative := twoTo 63 ≤ bits
  let field : Nat := bits / twoTo 52 % twoTo 11
  let fraction := bits % twoTo 52
  if field = 2047 then
    if fraction = 0 then .infinite negative else .undefined
  else if field = 0 then .finite negative fraction (-1074)
  else .finite negative (twoTo 52 + fraction) ((field : Int) - 1075)

/-! ## The nearest binary number -/

/-- The exponent of the leading bit of `n / d`, both positive. -/
def leadingExponent (n d : Nat) : Int :=
  let e : Int := n.log2 - d.log2
  if n * twoTo (-e).toNat < d * twoTo e.toNat then e - 1 else e

/-- The binary number nearest to `n / d` with the given sign; infinite when out of range. -/
def ofSignedRatio (negative : Bool) (n d : Nat) : Float :=
  let sign : Nat := if negative then twoTo 63 else 0
  if n = 0 then Float.ofBits (UInt64.ofNat sign)
  else
    let unit := max (leadingExponent n d - 52) (-1074)
    let significand := (halfEven (n * twoTo (-unit).toNat : Nat) (d * twoTo unit.toNat)).toNat
    let bits := (unit + 1074).toNat * twoTo 52 + significand
    Float.ofBits (UInt64.ofNat (sign + min bits (2047 * twoTo 52)))

/-- The binary number nearest to `n / d`. -/
def ofRatio (n : Int) (d : Nat) : Float := ofSignedRatio (n < 0) n.natAbs d

/-- The binary number nearest to a whole number. -/
def ofInt (n : Int) : Float := ofRatio n 1

/-- A whole number cut to the fifty-three leading bits that a binary number keeps. -/
def keepLeading (n : Int) : Int :=
  if n.natAbs ≤ twoTo 53 then n
  else
    let unit := n.natAbs.log2 - 52
    let kept := halfEven n.natAbs (twoTo unit) * twoTo unit
    if n < 0 then -kept else kept

/-! ## Whole numbers from binary numbers -/

/-- A finite number handed on as sign, numerator and denominator. -/
def wholeBy (f : Bool → Nat → Nat → Int) (x : Float) : Except NotFinite Int :=
  match parts x with
  | .finite negative m e => .ok (f negative (m * twoTo e.toNat) (twoTo (-e).toNat))
  | .infinite _ => .error .infinite
  | .undefined => .error .undefined

/-- The nearest whole number, a half going to the even neighbour. -/
def round (x : Float) : Except NotFinite Int :=
  wholeBy (fun negative n d => if negative then -halfEven n d else halfEven n d) x

/-- The whole part, cut toward zero. -/
def truncate (x : Float) : Except NotFinite Int :=
  wholeBy (fun negative n d => if negative then -((n / d : Nat) : Int) else ((n / d : Nat) : Int)) x

/-- The whole number nearest to `n / d`, decided on the binary quotient once `n` outgrows it. -/
def roundQuotient (n : Int) (d : Nat) : Int :=
  if n.natAbs ≤ twoTo 53 then halfEven n d
  else match round (ofRatio n d) with
    | .ok q => q
    | .error _ => halfEven n d

/-! ## Lengths -/

/-- The binary number nearest to the square root of `n * 2 ^ e`, `e` even. -/
def sqrtScaled (n : Nat) (e : Int) : Float :=
  let root := sqrtFloor (n * twoTo 128)
  let sticky := if root * root = n * twoTo 128 then 0 else 1
  let scale := e / 2 - 65
  ofSignedRatio false ((2 * root + sticky) * twoTo scale.toNat) (twoTo (-scale).toNat)

/-- The length of the hypotenuse over two legs, rounded once. -/
def hypot (x y : Float) : Float :=
  match parts x, parts y with
  | .infinite _, _ | _, .infinite _ => Float.ofBits (UInt64.ofNat (2047 * twoTo 52))
  | .undefined, _ => x
  | _, .undefined => y
  | .finite _ m e, .finite _ n f =>
    let low := min e f
    let a := m * twoTo (e - low).toNat
    let b := n * twoTo (f - low).toNat
    sqrtScaled (a * a + b * b) (2 * low)

/-- The length of the hypotenuse over two whole legs. -/
def hypotInt (x y : Int) : Float := hypot (ofInt x) (ofInt y)

end Redraft.Number
