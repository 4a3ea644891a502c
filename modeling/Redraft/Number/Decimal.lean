import Redraft.Number.Binary

/-!
# Decimal text of binary numbers

Two ways of writing a binary number: with a fixed count of places (`fixed`,
with a scientific form for large numbers), and with the fewest digits that
read back as the same number (`shortest`).
-/

namespace Redraft.Number

/-- Decimal digits of a natural number, padded with zeros on the left. -/
def padded (width n : Nat) : String :=
  let digits := toString n
  "".pushn '0' (width - digits.length) ++ digits

/-- The exponent of the leading decimal digit of `n / d`, both positive. -/
def leadingPlace (n d : Nat) : Int :=
  let e : Int := ((toString n).length : Int) - (toString d).length
  if n * tenTo (-e).toNat < d * tenTo e.toNat then e - 1 else e

/-! ## Fixed places -/

/-- A rounded quotient with `places` digits after the point; zero has no sign. -/
def fixedText (places : Nat) (negative : Bool) (n d : Nat) : String :=
  let scaled := (halfEven (n * tenTo places : Nat) d).toNat
  let sign := if negative ∧ scaled ≠ 0 then "-" else ""
  sign ++ toString (scaled / tenTo places) ++ "." ++ padded places (scaled % tenTo places)

/-- An exponent with its sign and at least two digits. -/
def exponentText (e : Int) : String :=
  "e" ++ (if e < 0 then "-" else "+") ++ padded 2 e.natAbs

/-- A leading digit, `places` further digits and an exponent. -/
def scientificText (places : Nat) (negative : Bool) (n d : Nat) : String :=
  let place := leadingPlace n d
  let shift := (places : Int) - place
  let digits := (halfEven (n * tenTo shift.toNat : Nat) (d * tenTo (-shift).toNat)).toNat
  let carried := tenTo (places + 1) ≤ digits
  let digits := if carried then digits / 10 else digits
  let place := if carried then place + 1 else place
  (if negative then "-" else "") ++ toString (digits / tenTo places) ++ "." ++
    padded places (digits % tenTo places) ++ exponentText place

/-- Four places below a million million, seven significant digits from there on. -/
def fixed (x : Float) : String :=
  match parts x with
  | .undefined => "nan"
  | .infinite negative => if negative then "-inf" else "inf"
  | .finite negative m e =>
    let n := m * twoTo e.toNat
    let d := twoTo (-e).toNat
    if d * tenTo 12 ≤ n then scientificText 6 negative n d else fixedText 4 negative n d

/-! ## Fewest digits -/

/-- The numbers that read back as `± m * 2 ^ e`: the value, the half gaps
    below and above it, and a common denominator. -/
structure Interval where
  value : Nat
  below : Nat
  above : Nat
  scale : Nat
  closed : Bool

/-- The interval of the binary number with significand `m` and exponent `e`. -/
def Interval.of (m : Nat) (e : Int) : Interval :=
  let unit := twoTo e.toNat
  let narrow := m = twoTo 52 ∧ -1074 < e
  { value := 4 * m * unit
    below := if narrow then unit else 2 * unit
    above := 2 * unit
    scale := 4 * twoTo (-e).toNat
    closed := m % 2 = 0 }

/-- The interval holds `digits * 10 ^ place`. -/
def Interval.holds (i : Interval) (digits : Nat) (place : Int) : Bool :=
  let point := digits * tenTo place.toNat * i.scale
  let scaled := fun n => n * tenTo (-place).toNat
  if i.closed then scaled (i.value - i.below) ≤ point && point ≤ scaled (i.value + i.above)
  else scaled (i.value - i.below) < point && point < scaled (i.value + i.above)

/-- The neighbour of the value on the grid of `10 ^ place` that lies in the
    interval, the nearer of two, the even one of two equally near. -/
def Interval.onGrid (i : Interval) (place : Int) : Option Nat :=
  let n := i.value * tenTo (-place).toNat
  let d := i.scale * tenTo place.toNat
  let nearest := (halfEven n d).toNat
  let low := n / d
  let other := if nearest = low then low + 1 else low
  if i.holds nearest place then some nearest
  else if i.holds other place then some other
  else none

/-- The first grid, coarse to fine, with a neighbour in the interval. -/
def Interval.search (i : Interval) : Nat → Int → Nat × Int
  | 0, place => ((i.onGrid place).getD 0, place)
  | fuel + 1, place =>
    match i.onGrid place with
    | some (digits + 1) => (digits + 1, place)
    | _ => i.search fuel (place - 1)

/-- Digits and the place of the last digit of the shortest decimal that reads
    back as the positive number `m * 2 ^ e`. -/
def shortestDigits (m : Nat) (e : Int) : Nat × Int :=
  let i := Interval.of m e
  i.search 17 (leadingPlace i.value i.scale + 1)

/-- Digits laid out around the point: positional for leading places from -4 to
    15, with an exponent otherwise; at least one digit after a point. -/
def layOut (digits : Nat) (place : Int) : String :=
  let text := toString digits
  let lead := (text.length : Int) - 1 + place
  if -4 ≤ lead ∧ lead < 16 then
    if 0 ≤ place then text ++ "".pushn '0' place.toNat ++ ".0"
    else if 0 ≤ lead then
      let whole := (lead + 1).toNat
      String.ofList (text.toList.take whole) ++ "." ++ String.ofList (text.toList.drop whole)
    else "0." ++ "".pushn '0' (-lead - 1).toNat ++ text
  else
    let tail := String.ofList (text.toList.drop 1)
    String.ofList (text.toList.take 1) ++ (if tail.isEmpty then "" else "." ++ tail) ++ exponentText lead

/-- The shortest decimal text that reads back as `x`. -/
def shortest (x : Float) : String :=
  match parts x with
  | .undefined => "nan"
  | .infinite negative => if negative then "-inf" else "inf"
  | .finite negative 0 _ => if negative then "-0.0" else "0.0"
  | .finite negative m e =>
    let (digits, place) := shortestDigits m e
    (if negative then "-" else "") ++ layOut digits place

end Redraft.Number
