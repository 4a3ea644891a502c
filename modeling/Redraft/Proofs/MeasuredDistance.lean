import Redraft.Proofs.BinaryLengths
import Redraft.Proofs.ExactDistance

/-!
# Measured distances

The distance of a point from a segment is measured in binary numbers: the part
of the segment up to the nearest point is a rounded quotient, and the way from
there to the point comes from a rounded product and difference. Among
coordinates of thirty-two digits this decides like the exact distance, unless
the square of that is within a ten-thousandth of one.
-/

namespace Redraft
open Number

/-- The coordinates are no more than a number. -/
structure Point.Within (n : Nat) (p : Point) : Prop where
  across : p.x.natAbs ≤ n
  down : p.y.natAbs ≤ n

theorem abs_le_of_natAbs_le {n : Int} {m : Nat} (small : n.natAbs ≤ m) : |n| ≤ m := by
  rw [Int.abs_eq_natAbs]
  exact_mod_cast small

namespace Segment
variable {s : Segment} {p : Point}

/-! ## Ranges -/

theorem dot_self_le {n : Nat} {v : Point} (small : v.Within n) : dot v v ≤ 2 * n ^ 2 := by
  have square {m : Int} (small : m.natAbs ≤ n) : m * m ≤ n ^ 2 := by
    rw [← Int.natAbs_mul_self' m, sq]
    exact_mod_cast Nat.mul_le_mul small small
  have across := square small.across
  have down := square small.down
  unfold dot
  omega

theorem within_of_dot_self {n : Nat} {v : Point} (le : dot v v ≤ n ^ 2) : v.Within n := by
  have root {m : Int} (le : m * m ≤ n ^ 2) : m.natAbs ≤ n := by
    rw [← Int.natAbs_mul_self' m, ← sq] at le
    exact (Nat.pow_le_pow_iff_left two_ne_zero).1 (by exact_mod_cast le)
  unfold dot at le
  have across := mul_self_nonneg v.x
  have down := mul_self_nonneg v.y
  exact ⟨root (by omega), root (by omega)⟩

theorem dot_self_pos {v : Point} (some : v ≠ Point.origin) : 0 < dot v v := by
  have parts : v.x ≠ 0 ∨ v.y ≠ 0 := by
    by_contra none
    push Not at none
    exact some (Point.ext none.1 none.2)
  rcases parts with turns | turns
  · exact add_pos_of_pos_of_nonneg (mul_self_pos.2 turns) (mul_self_nonneg v.y)
  · exact add_pos_of_nonneg_of_pos (mul_self_nonneg v.x) (mul_self_pos.2 turns)

theorem extentSq_pos (some : s.direction ≠ Point.origin) : 0 < s.extentSq := dot_self_pos some

theorem foot_range (some : s.direction ≠ Point.origin) (small : s.direction.Within (2 ^ 32)) (small' : (p - s.a).Within (2 ^ 32)) :
    |(s.foot p / s.extentSq : ℚ)| < 2 ^ 200 := by
  have ahead : (s.extentSq : ℚ) ≤ 2 ^ 65 := by exact_mod_cast dot_self_le small
  have apart : (p.apartSq s.a : ℚ) ≤ 2 ^ 65 := by exact_mod_cast dot_self_le small'
  have wide : (1 : ℚ) ≤ s.extentSq := by exact_mod_cast extentSq_pos some
  have right : (s.drift p : ℚ) ^ 2 + s.foot p ^ 2 = s.extentSq * p.apartSq s.a := by
    exact_mod_cast drift_sq_add_foot_sq s p
  have square : (s.foot p : ℚ) ^ 2 ≤ (2 ^ 65) ^ 2 := by nlinarith [sq_nonneg (s.drift p : ℚ)]
  have foot : |(s.foot p : ℚ)| ≤ 2 ^ 65 := abs_le_of_sq_le_sq square (by norm_num)
  rw [abs_div, abs_of_pos (by linarith : (0 : ℚ) < s.extentSq), div_lt_iff₀ (by linarith)]
  linarith

theorem squaredDistance_range (small : (p - s.a).Within (2 ^ 32)) : s.squaredDistance p ≤ 2 ^ 65 := by
  have first := squaredDistance_le (s := s) (p := p) (le_refl 0) zero_le_one
  rw [squareFrom_eq] at first
  have apart : p.apartSq s.a ≤ 2 ^ 65 := dot_self_le small
  have first : s.squaredDistance p ≤ p.apartSq s.a := by
    have first : (s.squaredDistance p : ℝ) ≤ p.apartSq s.a := by linarith
    exact_mod_cast first
  exact first.trans (by exact_mod_cast apart)

/-! ## The part up to the nearest point -/

/-- A number, or the nearer one of zero and one beyond these. -/
def clamp (u : ℚ) : ℚ := max (min u 1) 0

theorem clamp_bounds (u : ℚ) : 0 ≤ clamp u ∧ clamp u ≤ 1 :=
  ⟨le_max_right _ _, max_le (min_le_right _ _) zero_le_one⟩

theorem clamp_of_nonpos {u : ℚ} (before : u ≤ 0) : clamp u = 0 := max_eq_right ((min_le_left u 1).trans before)

theorem clamp_of_one_le {u : ℚ} (beyond : 1 ≤ u) : clamp u = 1 := by
  rw [clamp, min_eq_right beyond, max_eq_left zero_le_one]

theorem clamp_of_mem {u : ℚ} (after : 0 ≤ u) (within : u ≤ 1) : clamp u = u := by
  rw [clamp, min_eq_left within, max_eq_left after]

/-- The error of a large number does not matter, as the number is clamped. -/
theorem clamp_near {u v : ℚ} (close : |v - u| ≤ (|u| + 1) / 2 ^ 52) : |clamp v - clamp u| ≤ 1 / 2 ^ 51 := by
  obtain ⟨low, high⟩ := abs_le.1 close
  rcases lt_or_ge u (-1) with before | after
  · rw [abs_of_neg (by linarith)] at high
    rw [clamp_of_nonpos (by linarith : v ≤ 0), clamp_of_nonpos (by linarith : u ≤ 0)]
    norm_num
  rcases lt_or_ge 1 u with beyond | within
  · rw [abs_of_pos (by linarith)] at low
    have nearly : 1 - 1 / 2 ^ 51 ≤ clamp v := le_max_of_le_left (le_min (by linarith) (by norm_num))
    rw [clamp_of_one_le beyond.le, abs_sub_comm, abs_of_nonneg (sub_nonneg.2 (clamp_bounds v).2)]
    linarith
  · calc |clamp v - clamp u| ≤ |min v 1 - min u 1| := abs_max_sub_max_le_abs _ _ _
      _ ≤ max |v - u| |1 - 1| := abs_min_sub_min_le_max _ _ _ _
      _ = |v - u| := by rw [sub_self, abs_zero, max_eq_left (abs_nonneg _)]
      _ ≤ 1 / 2 ^ 51 := by linarith [abs_le.2 ⟨after, within⟩]

theorem nearestPart_eq (some : s.direction ≠ Point.origin) (p : Point) : s.nearestPart p = clamp (s.foot p / s.extentSq) := by
  have wide : (0 : ℚ) < s.extentSq := by exact_mod_cast extentSq_pos some
  unfold nearestPart
  split
  · rename_i before
    exact (clamp_of_nonpos (div_nonpos_of_nonpos_of_nonneg (by exact_mod_cast before) wide.le)).symm
  · rename_i after
    have after : (0 : ℚ) ≤ s.foot p := by exact_mod_cast (by omega : 0 ≤ s.foot p)
    split
    · rename_i beyond
      exact (clamp_of_one_le ((one_le_div wide).2 (by exact_mod_cast beyond))).symm
    · rename_i within
      have within : (s.foot p : ℚ) ≤ s.extentSq := by exact_mod_cast (by omega : s.foot p ≤ s.extentSq)
      exact (clamp_of_mem (div_nonneg after wide.le) ((div_le_one wide).2 within)).symm

/-- The measured part of the segment is the clamped value of a quotient. -/
theorem value_parameter (finite : (parts (ofRatio (s.foot p) s.extentSq.toNat)).IsFinite) :
    (parts (s.parameter p)).IsFinite ∧
      value (s.parameter p) = clamp (value (ofRatio (s.foot p) s.extentSq.toNat)) := by
  have same : dot (p - s.a) s.direction = s.foot p := by
    unfold foot dot
    ring
  unfold parameter
  dsimp only
  rw [same, show dot s.direction s.direction = s.extentSq by rfl]
  generalize ofRatio (s.foot p) s.extentSq.toNat = t at *
  by_cases before : t < 0.0
  · rw [if_pos before]
    rw [lt_iff finite value_zero.1, value_zero.2] at before
    exact ⟨value_zero.1, value_zero.2.trans (clamp_of_nonpos before.le).symm⟩
  rw [if_neg before]
  rw [lt_iff finite value_zero.1, value_zero.2, not_lt] at before
  by_cases within : t < 1.0
  · rw [if_pos within]
    rw [lt_iff finite value_one.1, value_one.2] at within
    exact ⟨finite, (clamp_of_mem before within.le).symm⟩
  · rw [if_neg within]
    rw [lt_iff finite value_one.1, value_one.2, not_lt] at within
    exact ⟨value_one.1, value_one.2.trans (clamp_of_one_le within).symm⟩

theorem parameter_near (some : s.direction ≠ Point.origin) (range : |(s.foot p / s.extentSq : ℚ)| < 2 ^ 200) :
    (parts (s.parameter p)).IsFinite ∧ |value (s.parameter p) - s.nearestPart p| ≤ 1 / 2 ^ 51 := by
  have wide := extentSq_pos some
  have whole : ((s.extentSq.toNat : Nat) : ℚ) = s.extentSq := by exact_mod_cast Int.toNat_of_nonneg wide.le
  rw [← whole] at range
  obtain ⟨finite, close⟩ := ofRatio_approximates (s.foot p) (by omega : s.extentSq.toNat ≠ 0) range
  obtain ⟨isFinite, isValue⟩ := value_parameter finite
  rw [isValue, nearestPart_eq some, ← whole]
  exact ⟨isFinite, clamp_near close⟩

/-! ## The way from the nearest point -/

theorem rest_near {t : Float} {u : ℚ} {q d : Int} (finite : (parts t).IsFinite) (close : |value t - u| ≤ 1 / 2 ^ 51)
    (part : 0 ≤ u ∧ u ≤ 1) (small : q.natAbs ≤ 2 ^ 32) (small' : d.natAbs ≤ 2 ^ 32) :
    (parts (ofInt q - t * ofInt d)).IsFinite ∧ |value (ofInt q - t * ofInt d) - (q - u * d)| ≤ 1 / 2 ^ 17 := by
  obtain ⟨isFinite, isValue⟩ := value_ofInt (small.trans_lt (by norm_num))
  obtain ⟨isFinite', isValue'⟩ := value_ofInt (small'.trans_lt (by norm_num))
  have q_le : |(q : ℚ)| ≤ 2 ^ 32 := by exact_mod_cast abs_le_of_natAbs_le small
  have d_le : |(d : ℚ)| ≤ 2 ^ 32 := by exact_mod_cast abs_le_of_natAbs_le small'
  have shift : |value t * d - u * d| ≤ 1 / 2 ^ 19 := by
    rw [← sub_mul, abs_mul]
    calc |value t - u| * |(d : ℚ)| ≤ 1 / 2 ^ 51 * 2 ^ 32 := mul_le_mul close d_le (abs_nonneg _) (by norm_num)
      _ = 1 / 2 ^ 19 := by norm_num
  have way : |u * (d : ℚ)| ≤ 2 ^ 32 := by
    rw [abs_mul, abs_of_nonneg part.1]
    nlinarith [abs_nonneg (d : ℚ)]
  have length : |value t * d| ≤ 2 ^ 32 + 1 := by
    linarith [abs_sub_abs_le_abs_sub (value t * d) (u * d)]
  obtain ⟨mulFinite, mulClose⟩ := mul_approximates finite isFinite' (by
    rw [isValue']
    linarith)
  rw [isValue'] at mulClose
  generalize t * ofInt d = m at *
  have moved : |value m| ≤ 2 ^ 32 + 2 := by
    linarith [abs_sub_abs_le_abs_sub (value m) (value t * d)]
  have apart : |(q : ℚ) - value m| ≤ 2 ^ 33 + 2 := by
    linarith [abs_sub (q : ℚ) (value m)]
  obtain ⟨subFinite, subClose⟩ := sub_approximates isFinite mulFinite (by
    rw [isValue]
    linarith)
  rw [isValue] at subClose
  refine ⟨subFinite, ?_⟩
  generalize value (ofInt q - m) = r at *
  -- the errors of the difference, of the product and of the part
  have split : r - (q - u * d) = (r - (q - value m)) - (value m - value t * d) - (value t * d - u * d) := by ring
  rw [split]
  linarith [abs_sub (r - (q - value m) - (value m - value t * d)) (value t * d - u * d),
    abs_sub (r - (q - value m)) (value m - value t * d)]

theorem square_near {x y : ℚ} (close : |y - x| ≤ 1 / 2 ^ 17) : |y ^ 2 - x ^ 2| ≤ (x ^ 2 + 2) / 2 ^ 17 := by
  obtain ⟨low, high⟩ := abs_le.1 close
  have apart : (y - x) ^ 2 ≤ 1 / 2 ^ 17 := by nlinarith
  have both : |2 * x * (y - x)| ≤ (x ^ 2 + 1) / 2 ^ 17 := by
    rw [abs_mul]
    have double : |2 * x| ≤ x ^ 2 + 1 := abs_le.2 ⟨by nlinarith [sq_nonneg (x + 1)], by nlinarith [sq_nonneg (x - 1)]⟩
    calc |2 * x| * |y - x| ≤ (x ^ 2 + 1) * (1 / 2 ^ 17) := mul_le_mul double close (abs_nonneg _) (by positivity)
      _ = (x ^ 2 + 1) / 2 ^ 17 := by ring
  obtain ⟨low', high'⟩ := abs_le.1 both
  rw [abs_le]
  constructor <;> nlinarith [sq_nonneg (y - x)]

/-! ## The distance -/

theorem squaredDistance_eq (s : Segment) (p : Point) : s.squaredDistance p =
    ((p - s.a).x - s.nearestPart p * s.direction.x) ^ 2 + ((p - s.a).y - s.nearestPart p * s.direction.y) ^ 2 := by
  have square := squareFrom_nearestPart s p
  unfold squareFrom at square
  rw [Point.sub_x, Point.sub_y]
  push_cast
  have square : (p.x - (s.a.x + s.nearestPart p * s.direction.x)) ^ 2 +
      (p.y - (s.a.y + s.nearestPart p * s.direction.y)) ^ 2 = s.squaredDistance p := by exact_mod_cast square
  rw [← square]
  ring

/-- The measured distance is the length of a hypotenuse whose exact square is near that of the distance. -/
theorem distance_legs (small : s.direction.Within (2 ^ 32)) (small' : (p - s.a).Within (2 ^ 32)) :
    ∃ x y, s.distance p = hypot x y ∧ (parts x).IsFinite ∧ (parts y).IsFinite ∧
      |value x ^ 2 + value y ^ 2 - s.squaredDistance p| ≤ (s.squaredDistance p + 4) / 2 ^ 17 := by
  rw [squaredDistance_eq]
  by_cases point : s.direction = Point.origin
  · obtain ⟨isFinite, isValue⟩ := value_ofInt (small'.across.trans_lt (by norm_num))
    obtain ⟨isFinite', isValue'⟩ := value_ofInt (small'.down.trans_lt (by norm_num))
    refine ⟨ofInt (p - s.a).x, ofInt (p - s.a).y, ?_, isFinite, isFinite', ?_⟩
    · unfold distance
      dsimp only
      rw [if_pos point]
      rfl
    · rw [isValue, isValue', point, show Point.origin.x = 0 by rfl, show Point.origin.y = 0 by rfl, Int.cast_zero,
        mul_zero, sub_zero, sub_zero, sub_self, abs_zero]
      positivity
  · obtain ⟨finite, close⟩ := parameter_near point (foot_range point small small')
    have part := s.nearestPart_bounds p
    obtain ⟨isFinite, across⟩ := rest_near finite close part small'.across small.across
    obtain ⟨isFinite', down⟩ := rest_near finite close part small'.down small.down
    refine ⟨_, _, ?_, isFinite, isFinite', ?_⟩
    · unfold distance
      dsimp only
      rw [if_neg point]
    · obtain ⟨low, high⟩ := abs_le.1 (square_near across)
      obtain ⟨low', high'⟩ := abs_le.1 (square_near down)
      rw [abs_le]
      constructor <;> linarith

/-- A point that is nearer than one unit by a little touches the segment. -/
theorem touches_of_squaredDistance (small : s.direction.Within (2 ^ 32)) (small' : (p - s.a).Within (2 ^ 32))
    (short : s.squaredDistance p ≤ 1 - 1 / 10 ^ 4) : s.touches p = true := by
  obtain ⟨x, y, same, finite, finite', close⟩ := distance_legs small small'
  unfold touches
  rw [same, decide_eq_true_iff]
  have high := (abs_le.1 close).2
  exact hypot_le_one finite finite' (by linarith)

/-- A point that is farther than one unit by a little does not touch the segment. -/
theorem not_touches_of_squaredDistance (small : s.direction.Within (2 ^ 32)) (small' : (p - s.a).Within (2 ^ 32))
    (long : 1 + 1 / 10 ^ 4 ≤ s.squaredDistance p) : s.touches p = false := by
  obtain ⟨x, y, same, finite, finite', close⟩ := distance_legs small small'
  unfold touches
  rw [same, decide_eq_false_iff_not]
  obtain ⟨low, high⟩ := abs_le.1 close
  have range := squaredDistance_range small'
  exact one_lt_hypot finite finite' (by linarith) (by linarith)

/-- What is measured agrees with the exact distance, unless this is next to one unit. -/
theorem touches_eq_isNear (small : s.direction.Within (2 ^ 32)) (small' : (p - s.a).Within (2 ^ 32))
    (apart : 1 / 10 ^ 4 ≤ |s.squaredDistance p - 1|) : s.touches p = s.isNear p := by
  rcases le_abs.1 apart with long | short
  · rw [not_touches_of_squaredDistance small small' (by linarith), isNear, eq_comm, decide_eq_false_iff_not, near_iff]
    linarith
  · rw [touches_of_squaredDistance small small' (by linarith), eq_comm, isNear_iff, near_iff]
    linarith

end Segment
end Redraft
