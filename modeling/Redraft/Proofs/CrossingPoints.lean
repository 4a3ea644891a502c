import Mathlib.Algebra.Order.Field.Basic
import Mathlib.Algebra.Order.Field.Rat
import Mathlib.Data.Rat.Cast.Order
import Mathlib.Tactic.FieldSimp
import Mathlib.Tactic.Linarith
import Mathlib.Tactic.LinearCombination
import Mathlib.Tactic.NormNum
import Mathlib.Tactic.Ring
import Redraft.Geometry.Crossing

/-!
# Where two segments cross

Two segments that are not parallel cross where their lines meet, if that is on
both. The parts of the way at which the lines meet are quotients of signed
areas, so the test of these areas decides it, for either sign of the divisor.
The crossing that is given is within half a unit of the meeting point.
-/

namespace Redraft

/-! ## Quotients -/

namespace Number

theorem nearestQuotient (n : Nat) {d : Nat} (pos : 0 < d) : |(((2 * n + d) / (2 * d) : Nat) : ℚ) - n / d| ≤ 1 / 2 := by
  have split := Nat.div_add_mod (2 * n + d) (2 * d)
  have less := Nat.mod_lt (2 * n + d) (by omega : 0 < 2 * d)
  generalize (2 * n + d) / (2 * d) = q at *
  generalize (2 * n + d) % (2 * d) = r at *
  have split : (2 * d * q + r : ℚ) = 2 * n + d := by exact_mod_cast split
  have less : (r : ℚ) < 2 * d := by exact_mod_cast less
  have nonneg : (0 : ℚ) ≤ r := Nat.cast_nonneg r
  have pos : (0 : ℚ) < d := by exact_mod_cast pos
  have error : (q : ℚ) - n / d = (d - r) / (2 * d) := by
    field_simp
    linarith
  rw [error, abs_le, le_div_iff₀ (by linarith), div_le_iff₀ (by linarith)]
  constructor <;> linarith

section
variable {n d : Int}

theorem quotient_nonneg (some : d ≠ 0) (same : n < 0 ↔ d < 0) : (0 : ℚ) ≤ n / d := by
  rcases Int.lt_or_gt_of_ne some with negative | positive
  · exact div_nonneg_of_nonpos (by exact_mod_cast (same.2 negative).le) (by exact_mod_cast negative.le)
  · exact div_nonneg (by exact_mod_cast (by omega : 0 ≤ n)) (by exact_mod_cast positive.le)

theorem quotient_nonpos (some : d ≠ 0) (other : ¬(n < 0 ↔ d < 0)) : (n / d : ℚ) ≤ 0 := by
  rcases Int.lt_or_gt_of_ne some with negative | positive
  · exact div_nonpos_of_nonneg_of_nonpos (by exact_mod_cast (by omega : 0 ≤ n)) (by exact_mod_cast negative.le)
  · exact div_nonpos_of_nonpos_of_nonneg (by exact_mod_cast (by omega : n ≤ 0)) (by exact_mod_cast positive.le)

end

/-- A quotient is rounded by no more than a half. -/
theorem halfAway_near (n : Int) {d : Int} (some : d ≠ 0) : |(halfAway n d : ℚ) - n / d| ≤ 1 / 2 := by
  have close := nearestQuotient n.natAbs (Int.natAbs_pos.2 some)
  rw [Nat.cast_natAbs, Nat.cast_natAbs, Int.cast_abs, Int.cast_abs, ← abs_div] at close
  unfold halfAway
  dsimp only
  generalize (2 * n.natAbs + d.natAbs) / (2 * d.natAbs) = q at close ⊢
  by_cases same : n < 0 ↔ d < 0
  · rw [if_pos same]
    rwa [abs_of_nonneg (quotient_nonneg some same)] at close
  · rw [if_neg same]
    rw [abs_of_nonpos (quotient_nonpos some same), ← abs_neg] at close
    push_cast
    rwa [neg_sub', neg_neg] at close

end Number

namespace Segment
open Number
variable {s t : Segment} {u v : ℚ}

/-! ## Lines that meet -/

/-- The point a given part of the way along the segment. -/
def along (s : Segment) (u : ℚ) : ℚ × ℚ := (s.a.x + u * s.direction.x, s.a.y + u * s.direction.y)

/-- The directions are multiples of one displacement; a segment that is a point is parallel to all. -/
def Parallel (s t : Segment) : Prop := ∃ i j : Int, (i ≠ 0 ∨ j ≠ 0) ∧ s.direction.scale i = t.direction.scale j

/-- The segments meet at these parts of the way along them. -/
structure MeetsAt (s t : Segment) (u v : ℚ) : Prop where
  first : 0 ≤ u ∧ u ≤ 1
  second : 0 ≤ v ∧ v ≤ 1
  same : s.along u = t.along v

/-- Both parts of the way lead to an end. -/
def AtEnds (u v : ℚ) : Prop := (u = 0 ∨ u = 1) ∧ (v = 0 ∨ v = 1)

/-- The area spanned by the directions, by which the other areas are divided. -/
def divisor (s t : Segment) : Int := cross t.direction s.direction

theorem parallel_iff : s.Parallel t ↔ s.divisor t = 0 := by
  simp only [Parallel, divisor, cross, Point.scale, Point.mk.injEq]
  generalize s.direction = e
  generalize t.direction = f
  constructor
  · rintro ⟨i, j, some, level, upright⟩
    have first : (f.x * e.y - f.y * e.x) * i = 0 := by linear_combination f.x * upright - f.y * level
    have second : (f.x * e.y - f.y * e.x) * j = 0 := by linear_combination e.x * upright - e.y * level
    rcases some with some | some
    · exact (Int.mul_eq_zero.1 first).resolve_right some
    · exact (Int.mul_eq_zero.1 second).resolve_right some
  · intro none
    by_cases across : f.x = 0
    · by_cases down : f.y = 0
      · exact ⟨0, 1, .inr one_ne_zero, by rw [across]; ring, by rw [down]; ring⟩
      · exact ⟨f.y, e.y, .inl down, by linear_combination -none, by ring⟩
    · exact ⟨f.x, e.x, .inl across, by ring, by linear_combination none⟩

/-- Lines that are not parallel meet at the quotients of the areas. -/
theorem along_eq_iff (apart : s.divisor t ≠ 0) : s.along u = t.along v ↔
    u = cross t.direction (t.a - s.a) / s.divisor t ∧ v = cross s.direction (t.a - s.a) / s.divisor t := by
  have some : (s.divisor t : ℚ) ≠ 0 := by exact_mod_cast apart
  rw [eq_div_iff some, eq_div_iff some]
  simp only [along, Prod.mk.injEq, divisor, cross, Point.sub_x, Point.sub_y] at some ⊢
  push_cast at some ⊢
  constructor
  · rintro ⟨level, upright⟩
    constructor
    · linear_combination (t.direction.x : ℚ) * upright - t.direction.y * level
    · linear_combination (s.direction.x : ℚ) * upright - s.direction.y * level
  · rintro ⟨first, second⟩
    constructor
    · apply mul_right_cancel₀ some
      linear_combination (s.direction.x : ℚ) * first - t.direction.x * second
    · apply mul_right_cancel₀ some
      linear_combination (s.direction.y : ℚ) * first - t.direction.y * second

theorem withinUnit_iff {n d : Int} (some : d ≠ 0) : withinUnit n d = true ↔ 0 ≤ (n / d : ℚ) ∧ (n / d : ℚ) ≤ 1 := by
  unfold withinUnit
  rcases Int.lt_or_gt_of_ne some with negative | positive
  · have less : (d : ℚ) < 0 := by exact_mod_cast negative
    rw [if_neg (by omega), div_le_one_of_neg less, le_div_iff_of_neg less, zero_mul]
    simp only [Bool.and_eq_true, decide_eq_true_eq, Int.cast_le, Int.cast_nonpos]
    exact and_comm
  · have greater : (0 : ℚ) < d := by exact_mod_cast positive
    rw [if_pos positive, div_le_one greater, le_div_iff₀ greater, zero_mul]
    simp only [Bool.and_eq_true, decide_eq_true_eq, Int.cast_le, Int.cast_nonneg_iff]

/-- A quotient is zero or one when what is divided is zero or the divisor. -/
theorem quotient_end {n d : Int} (some : d ≠ 0) : (n == 0 || n == d) = true ↔ (n / d : ℚ) = 0 ∨ (n / d : ℚ) = 1 := by
  have some' : (d : ℚ) ≠ 0 := by exact_mod_cast some
  rw [div_eq_one_iff_eq some', div_eq_zero_iff, or_iff_left some', Int.cast_eq_zero, Int.cast_inj]
  simp

/-- The meeting point in whole coordinates, measured along the other segment. -/
def meetingPoint (s t : Segment) : Point :=
  ⟨t.a.x + halfAway (cross s.direction (t.a - s.a) * t.direction.x) (s.divisor t),
    t.a.y + halfAway (cross s.direction (t.a - s.a) * t.direction.y) (s.divisor t)⟩

/-- What is tested of the areas before a crossing is given. -/
def areasMeet (s t : Segment) (inner : Bool) : Bool :=
  let d := s.divisor t
  let p := cross t.direction (t.a - s.a)
  let q := cross s.direction (t.a - s.a)
  withinUnit p d && withinUnit q d && !(inner && (q == 0 || q == d) && (p == 0 || p == d))

theorem guarded_twice {α : Type} (meets ends : Bool) (a : α) :
    (if !meets then none else if ends then none else some a) = if meets && !ends then some a else none := by
  cases meets <;> cases ends <;> rfl

theorem crossing_eq (apart : s.divisor t ≠ 0) (inner : Bool) :
    s.crossing t inner = if s.areasMeet t inner then some (s.meetingPoint t) else none := by
  have apart : cross t.direction s.direction ≠ 0 := apart
  unfold crossing
  dsimp only
  rw [if_neg apart]
  exact guarded_twice _ _ _

theorem areasMeet_iff (apart : s.divisor t ≠ 0) (inner : Bool) :
    s.areasMeet t inner = true ↔ ∃ u v, s.MeetsAt t u v ∧ ¬(inner = true ∧ AtEnds u v) := by
  unfold areasMeet
  dsimp only
  rw [Bool.and_eq_true, Bool.and_eq_true, Bool.not_eq_true', Bool.eq_false_iff, Ne, Bool.and_eq_true, Bool.and_eq_true,
    withinUnit_iff apart, withinUnit_iff apart, quotient_end apart, quotient_end apart]
  constructor
  · rintro ⟨⟨first, second⟩, inside⟩
    refine ⟨_, _, ⟨first, second, (along_eq_iff apart).2 ⟨rfl, rfl⟩⟩, ?_⟩
    intro ⟨isInner, atEnd, atEnd'⟩
    exact inside ⟨⟨isInner, atEnd'⟩, atEnd⟩
  · rintro ⟨u, v, ⟨first, second, same⟩, inside⟩
    obtain ⟨rfl, rfl⟩ := (along_eq_iff apart).1 same
    refine ⟨⟨first, second⟩, ?_⟩
    intro ⟨⟨isInner, atEnd'⟩, atEnd⟩
    exact inside ⟨isInner, atEnd, atEnd'⟩

/-- The coordinates are those of the place rounded to whole numbers, each by no more than a half. -/
def Rounds (p : Point) (place : ℚ × ℚ) : Prop := |p.x - place.1| ≤ 1 / 2 ∧ |p.y - place.2| ≤ 1 / 2

theorem meetingPoint_rounds (apart : s.divisor t ≠ 0) (same : s.along u = t.along v) : Rounds (s.meetingPoint t) (s.along u) := by
  have onOther := ((along_eq_iff apart).1 same).2
  have rounded (n c : Int) : |((c + halfAway (cross s.direction (t.a - s.a) * n) (s.divisor t) : Int) : ℚ) - (c + v * n)| ≤ 1 / 2 := by
    have close := halfAway_near (cross s.direction (t.a - s.a) * n) apart
    convert close using 2
    rw [onOther]
    push_cast
    ring
  rw [same]
  exact ⟨rounded t.direction.x t.a.x, rounded t.direction.y t.a.y⟩

theorem eq_of_whole {m n : Int} (close : |(m : ℚ) - n| ≤ 1 / 2) : m = n := by
  have close : |m - n| * 2 ≤ 1 := by
    have : (|m - n| : ℚ) * 2 ≤ 1 := by linarith
    exact_mod_cast this
  have := abs_nonneg (m - n)
  have := abs_le.1 (by omega : |m - n| ≤ 0)
  omega

theorem Rounds.eq {p q : Point} (near : Rounds p (q.x, q.y)) : p = q :=
  Point.ext (eq_of_whole near.1) (eq_of_whole near.2)

/-- Parallel segments have no crossing. Others have one exactly when they meet, and not at an end of both where such
    crossings are left out; it is the meeting point with each coordinate rounded by no more than a half, and so the
    meeting point itself where that has whole coordinates. -/
theorem crossing_meets (s t : Segment) (inner : Bool) :
    (s.Parallel t → s.crossing t inner = none) ∧
    (¬s.Parallel t →
      ((s.crossing t inner).isSome ↔ ∃ u v, s.MeetsAt t u v ∧ ¬(inner = true ∧ AtEnds u v)) ∧
      ∀ p, s.crossing t inner = some p → ∀ u v, s.along u = t.along v →
        Rounds p (s.along u) ∧ ∀ q : Point, (↑q.x, ↑q.y) = s.along u → p = q) := by
  constructor
  · intro parallel
    have none : cross t.direction s.direction = 0 := parallel_iff.1 parallel
    unfold crossing
    dsimp only
    rw [if_pos none]
  · intro parallel
    have apart : s.divisor t ≠ 0 := mt parallel_iff.2 parallel
    rw [crossing_eq apart, ← areasMeet_iff apart]
    constructor
    · cases s.areasMeet t inner <;> simp
    · intro p found u v same
      have isMeeting : s.meetingPoint t = p := by
        split at found
        · exact Option.some.inj found
        · cases found
      have near := meetingPoint_rounds apart same
      rw [isMeeting] at near
      refine ⟨near, ?_⟩
      intro q whole
      rw [← whole] at near
      exact near.eq

/-- A rising segment, and a falling one that is drawn upwards. -/
def rising : Segment := ⟨⟨0, 0⟩, ⟨3, 1⟩⟩
def falling : Segment := ⟨⟨2, -1⟩, ⟨0, 1⟩⟩

/-- They meet between whole coordinates; a segment has no crossing with a part of itself. -/
theorem rising_meets_falling : rising.Parallel ⟨⟨3, 1⟩, ⟨0, 0⟩⟩ ∧ rising.crossing ⟨⟨3, 1⟩, ⟨0, 0⟩⟩ true = none ∧
    ¬rising.Parallel falling ∧ rising.crossing falling true = some ⟨1, 0⟩ ∧
    rising.along (1 / 4) = falling.along (5 / 8) ∧ Rounds ⟨1, 0⟩ (rising.along (1 / 4)) := by
  have back : rising.Parallel ⟨⟨3, 1⟩, ⟨0, 0⟩⟩ := ⟨1, -1, by decide, by decide⟩
  have apart : ¬rising.Parallel falling := mt parallel_iff.1 (by decide)
  have found : rising.crossing falling true = some ⟨1, 0⟩ := by decide
  have same : rising.along (1 / 4) = falling.along (5 / 8) := by
    rw [along_eq_iff (by decide)]
    norm_num [rising, falling, divisor, cross, direction]
  obtain ⟨_, meets⟩ := crossing_meets rising falling true
  exact ⟨back, (crossing_meets rising _ true).1 back, apart, found, same, ((meets apart).2 _ found _ _ same).1⟩

end Segment

end Redraft
