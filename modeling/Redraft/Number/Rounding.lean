/-!
# Rounding quotients

Powers of two and of ten (`twoTo`, `tenTo`) are the scales of the number
formats. A quotient of whole numbers is rounded to a whole number in two ways:
a half goes to the even neighbour (`halfEven`) or away from zero (`halfAway`).
Both stay within half a unit of the quotient.
-/

namespace Redraft.Number

/-- A power of two. -/
def twoTo (e : Nat) : Nat := Nat.pow 2 e

/-- A power of ten. -/
def tenTo (e : Nat) : Nat := Nat.pow 10 e

/-- The whole number nearest to `n / d`, a half going to the even neighbour. -/
def halfEven (n : Int) (d : Nat) : Int :=
  let q := n / d
  let r := n % d
  if 2 * r < d ∨ (2 * r = d ∧ q % 2 = 0) then q else q + 1

/-- The whole number nearest to `n / d`, a half going away from zero. -/
def halfAway (n d : Int) : Int :=
  let q := (2 * n.natAbs + d.natAbs) / (2 * d.natAbs)
  if n < 0 ↔ d < 0 then (q : Int) else -(q : Int)

/-- The whole part of the square root, found two bits at a time. -/
def sqrtBits : Nat → Nat → Nat
  | 0, _ => 0
  | k + 1, n =>
    let r := 2 * sqrtBits k (n / 4)
    if (r + 1) * (r + 1) ≤ n then r + 1 else r

/-- The whole part of the square root of `n`. -/
def sqrtFloor (n : Nat) : Nat := sqrtBits (n.log2 / 2 + 1) n

theorem two_mul_halfEven_le (n : Int) {d : Nat} (pos : 0 < d) :
    2 * n - d ≤ 2 * (d * halfEven n d) ∧ 2 * (d * halfEven n d) ≤ 2 * n + d := by
  have split := Int.mul_ediv_add_emod n d
  have low := Int.emod_nonneg n (by omega : (d : Int) ≠ 0)
  have high := Int.emod_lt_of_pos n (by omega : (0 : Int) < d)
  unfold halfEven
  dsimp only
  split
  · constructor <;> omega
  · rw [Int.mul_add]
    constructor <;> omega

theorem twoTo_pos (e : Nat) : 0 < twoTo e := Nat.pow_pos (by decide)

@[simp] theorem halfEven_one (n : Int) : halfEven n 1 = n := by
  simp [halfEven]

end Redraft.Number
