import Mathlib.Algebra.Order.Field.Basic
import Mathlib.Data.Rat.Cast.Order
import Mathlib.Data.Real.Basic
import Mathlib.Tactic.FieldSimp
import Mathlib.Tactic.LinearCombination
import Mathlib.Tactic.Linarith
import Mathlib.Tactic.Ring
import Redraft.Geometry.Segment

/-!
# Exact distances from a segment

How far a point is from a segment, without rounding. The nearest point of the
segment is an end or the foot of the point, so the square of the distance is a
quotient of whole numbers. The points within one unit form a convex set.
-/

namespace Redraft

/-- The square of the distance between two points. -/
def Point.apartSq (p q : Point) : Int := Segment.dot (p - q) (p - q)

namespace Segment
variable {s : Segment} {p q r : Point} {u : ℝ}

/-- The square of the distance from the point that is a part of the way along the segment. -/
def squareFrom (s : Segment) (p : Point) (u : ℝ) : ℝ :=
  (p.x - (s.a.x + u * s.direction.x)) ^ 2 + (p.y - (s.a.y + u * s.direction.y)) ^ 2

/-- The point is within one unit of the segment. -/
def Near (s : Segment) (p : Point) : Prop := ∃ u, (0 ≤ u ∧ u ≤ 1) ∧ s.squareFrom p u ≤ 1

/-! ## The nearest point -/

/-- How far along the segment the foot of a point lies, where the whole is the square of its length. -/
def foot (s : Segment) (p : Point) : Int := dot s.direction (p - s.a)

/-- The area that a point spans with the segment: its distance from the line, times the length. -/
def drift (s : Segment) (p : Point) : Int := cross s.direction (p - s.a)

/-- The square of the length of the segment. -/
def extentSq (s : Segment) : Int := dot s.direction s.direction

/-- The square of the distance of a point from the segment: from an end, unless the foot lies between the ends. -/
def squaredDistance (s : Segment) (p : Point) : ℚ :=
  if s.foot p ≤ 0 then p.apartSq s.a
  else if s.extentSq ≤ s.foot p then p.apartSq s.b
  else s.drift p ^ 2 / s.extentSq

theorem extentSq_nonneg (s : Segment) : 0 ≤ s.extentSq :=
  add_nonneg (mul_self_nonneg _) (mul_self_nonneg _)

theorem squareFrom_eq (s : Segment) (p : Point) (u : ℝ) :
    s.squareFrom p u = p.apartSq s.a - 2 * u * s.foot p + u ^ 2 * s.extentSq := by
  simp only [squareFrom, Point.apartSq, foot, extentSq, dot, Point.sub_x, Point.sub_y]
  push_cast
  ring

theorem apartSq_stop (s : Segment) (p : Point) : p.apartSq s.b = p.apartSq s.a - 2 * s.foot p + s.extentSq := by
  simp only [Point.apartSq, foot, extentSq, dot, direction, Point.sub_x, Point.sub_y]
  ring

/-- The distance from the line and the way to the foot are at a right angle. -/
theorem drift_sq_add_foot_sq (s : Segment) (p : Point) :
    s.drift p ^ 2 + s.foot p ^ 2 = s.extentSq * p.apartSq s.a := by
  simp only [Point.apartSq, foot, drift, extentSq, dot, cross]
  ring

theorem extentSq_mul_squareFrom (s : Segment) (p : Point) (u : ℝ) :
    s.extentSq * s.squareFrom p u = s.drift p ^ 2 + (u * s.extentSq - s.foot p) ^ 2 := by
  have right : (s.drift p : ℝ) ^ 2 + s.foot p ^ 2 = s.extentSq * p.apartSq s.a := by
    exact_mod_cast drift_sq_add_foot_sq s p
  rw [squareFrom_eq]
  linear_combination -right

theorem squaredDistance_le (low : 0 ≤ u) (high : u ≤ 1) : s.squaredDistance p ≤ s.squareFrom p u := by
  have wide : (0 : ℝ) ≤ s.extentSq := by exact_mod_cast s.extentSq_nonneg
  unfold squaredDistance
  split
  · rename_i before
    have before : (s.foot p : ℝ) ≤ 0 := by exact_mod_cast before
    rw [squareFrom_eq, Rat.cast_intCast]
    nlinarith [mul_nonneg low (neg_nonneg.2 before), mul_nonneg (sq_nonneg u) wide]
  · rename_i after
    split
    · rename_i beyond
      have beyond : (s.extentSq : ℝ) ≤ s.foot p := by exact_mod_cast beyond
      rw [apartSq_stop, squareFrom_eq]
      push_cast
      nlinarith [mul_nonneg (sub_nonneg.2 high) (sub_nonneg.2 beyond), mul_nonneg (sq_nonneg (1 - u)) wide]
    · rename_i inside
      have wide : (0 : ℝ) < s.extentSq := by exact_mod_cast (by omega : 0 < s.extentSq)
      push_cast
      rw [div_le_iff₀ wide, mul_comm, extentSq_mul_squareFrom]
      nlinarith [sq_nonneg (u * s.extentSq - s.foot p)]

/-- The part of the segment up to its point nearest to a point. -/
def nearestPart (s : Segment) (p : Point) : ℚ :=
  if s.foot p ≤ 0 then 0 else if s.extentSq ≤ s.foot p then 1 else s.foot p / s.extentSq

theorem nearestPart_bounds (s : Segment) (p : Point) : 0 ≤ s.nearestPart p ∧ s.nearestPart p ≤ 1 := by
  unfold nearestPart
  split
  · exact ⟨le_rfl, zero_le_one⟩
  · split
    · exact ⟨zero_le_one, le_rfl⟩
    · have wide : (0 : ℚ) < s.extentSq := by exact_mod_cast (by omega : 0 < s.extentSq)
      have before : (0 : ℚ) ≤ s.foot p := by exact_mod_cast (by omega : 0 ≤ s.foot p)
      have within : (s.foot p : ℚ) ≤ s.extentSq := by exact_mod_cast (by omega : s.foot p ≤ s.extentSq)
      exact ⟨div_nonneg before wide.le, (div_le_one wide).2 within⟩

theorem squareFrom_nearestPart (s : Segment) (p : Point) : s.squareFrom p (s.nearestPart p) = s.squaredDistance p := by
  unfold nearestPart squaredDistance
  split
  · rw [squareFrom_eq, Rat.cast_intCast]
    push_cast
    ring
  · split
    · rw [squareFrom_eq, apartSq_stop]
      push_cast
      ring
    · rename_i inside
      have wide : (s.extentSq : ℝ) ≠ 0 := by exact_mod_cast (by omega : s.extentSq ≠ 0)
      push_cast
      rw [eq_div_iff wide, mul_comm, extentSq_mul_squareFrom, div_mul_cancel₀ _ wide, sub_self]
      ring

theorem near_iff : s.Near p ↔ s.squaredDistance p ≤ 1 := by
  constructor
  · rintro ⟨u, ⟨low, high⟩, near⟩
    exact_mod_cast (squaredDistance_le low high).trans near
  · intro near
    refine ⟨s.nearestPart p, by exact_mod_cast s.nearestPart_bounds p, ?_⟩
    rw [squareFrom_nearestPart]
    exact_mod_cast near

instance (s : Segment) (p : Point) : Decidable (s.Near p) := decidable_of_iff _ near_iff.symm

/-- The test for what is near, without rounding. -/
def isNear (s : Segment) (p : Point) : Bool := decide (s.Near p)

@[simp] theorem isNear_iff : s.isNear p = true ↔ s.Near p := decide_eq_true_iff

/-! ## Steps -/

theorem foot_add_scale (s : Segment) (p step : Point) (k : Int) :
    s.foot (p + step.scale k) = s.foot p + k * dot s.direction step := by
  simp only [foot, dot, Point.scale, Point.sub_x, Point.sub_y, Point.add_x, Point.add_y]
  ring

theorem drift_add_scale (s : Segment) (p step : Point) (k : Int) :
    s.drift (p + step.scale k) = s.drift p + k * cross s.direction step := by
  simp only [drift, cross, Point.scale, Point.sub_x, Point.sub_y, Point.add_x, Point.add_y]
  ring

theorem foot_start_add (s : Segment) (v : Point) : s.foot (s.a + v) = dot s.direction v := by
  simp only [foot, dot, Point.sub_x, Point.sub_y, Point.add_x, Point.add_y]
  ring

theorem drift_start_add (s : Segment) (v : Point) : s.drift (s.a + v) = cross s.direction v := by
  simp only [drift, cross, Point.sub_x, Point.sub_y, Point.add_x, Point.add_y]
  ring

theorem foot_stop_sub (s : Segment) (v : Point) : s.foot (s.b - v) = s.extentSq - dot s.direction v := by
  simp only [foot, extentSq, dot, direction, Point.sub_x, Point.sub_y]
  ring

theorem drift_stop_sub (s : Segment) (v : Point) : s.drift (s.b - v) = -cross s.direction v := by
  simp only [drift, cross, direction, Point.sub_x, Point.sub_y]
  ring

/-! ## Points between points -/

/-- A point between two points near the segment is near it. -/
theorem Near.between (first : s.Near p) (second : s.Near q) {v : ℝ} (low : 0 ≤ v) (high : v ≤ 1)
    (across : (r.x : ℝ) = p.x + v * (q.x - p.x)) (down : (r.y : ℝ) = p.y + v * (q.y - p.y)) : s.Near r := by
  obtain ⟨t, ⟨low', high'⟩, near⟩ := first
  obtain ⟨u, ⟨low'', high''⟩, near'⟩ := second
  refine ⟨t + v * (u - t), ⟨by nlinarith, by nlinarith⟩, ?_⟩
  -- a square is convex: what is between two numbers has no larger a square than what is between the squares
  have convex (a b : ℝ) : (a + v * (b - a)) ^ 2 ≤ a ^ 2 + v * (b ^ 2 - a ^ 2) := by
    nlinarith [mul_nonneg (mul_nonneg low (sub_nonneg.2 high)) (sq_nonneg (b - a))]
  unfold squareFrom at near near' ⊢
  have level := convex (p.x - (s.a.x + t * s.direction.x)) (q.x - (s.a.x + u * s.direction.x))
  have upright := convex (p.y - (s.a.y + t * s.direction.y)) (q.y - (s.a.y + u * s.direction.y))
  have across : (r.x : ℝ) - (s.a.x + (t + v * (u - t)) * s.direction.x) = p.x - (s.a.x + t * s.direction.x) +
      v * (q.x - (s.a.x + u * s.direction.x) - (p.x - (s.a.x + t * s.direction.x))) := by
    rw [across]
    ring
  have down : (r.y : ℝ) - (s.a.y + (t + v * (u - t)) * s.direction.y) = p.y - (s.a.y + t * s.direction.y) +
      v * (q.y - (s.a.y + u * s.direction.y) - (p.y - (s.a.y + t * s.direction.y))) := by
    rw [down]
    ring
  rw [across, down]
  linarith [mul_le_mul_of_nonneg_left near' low, mul_le_mul_of_nonneg_left near (sub_nonneg.2 high)]

end Segment

end Redraft
