import Redraft.Proofs.CrossingOrder
import Redraft.Proofs.LabelContact

/-!
# Points exactly on a segment

A point is taken to be on a segment when it spans no area with it and is no
farther along an axis than the ends. Such a point is a part of the way along the
segment, and at no distance from it, and there are no others: so neither the
direction of the segment matters nor where both are on the sheet.
-/

namespace Redraft.Segment

/-! ## Parts of the way -/

section
variable {u : ℚ}

theorem between_of_part {a b : ℚ} (part : 0 ≤ u ∧ u ≤ 1) : min a b ≤ a + u * (b - a) ∧ a + u * (b - a) ≤ max a b := by
  obtain ⟨low, high⟩ := part
  rcases le_total a b with up | down
  · rw [min_eq_left up, max_eq_right up]
    constructor <;> nlinarith
  · rw [min_eq_right down, max_eq_left down]
    constructor <;> nlinarith

theorem part_of_between {a b c : Int} (apart : b - a ≠ 0) (low : min a b ≤ c) (high : c ≤ max a b) :
    0 ≤ (((c - a : Int) : ℚ) / (b - a : Int)) ∧ ((c - a : Int) : ℚ) / (b - a : Int) ≤ 1 := by
  rw [← withinUnit_iff apart, withinUnit]
  split
  · simp only [Bool.and_eq_true, decide_eq_true_eq]
    omega
  · simp only [Bool.and_eq_true, decide_eq_true_eq]
    omega

end

section
variable {s : Segment} {p : Point} {u : ℚ}

theorem along_eq_point : s.along u = (↑p.x, ↑p.y) ↔ (p.x : ℚ) = s.a.x + u * (s.b.x - s.a.x) ∧
    (p.y : ℚ) = s.a.y + u * (s.b.y - s.a.y) := by
  simp only [along, direction, Prod.mk.injEq, Point.sub_x, Point.sub_y, Int.cast_sub]
  exact and_congr eq_comm eq_comm

theorem onLine_iff : s.OnLine p ↔ (s.b.x - s.a.x) * (p.y - s.a.y) = (s.b.y - s.a.y) * (p.x - s.a.x) := by
  simp only [OnLine, cross, direction, Point.sub_x, Point.sub_y]
  exact sub_eq_zero

theorem OnLine.along (onLine : s.OnLine p) (spans : s.Spans p) :
    ∃ u : ℚ, (0 ≤ u ∧ u ≤ 1) ∧ s.along u = (↑p.x, ↑p.y) := by
  -- a point of the line is as far along it as along an axis on which the ends are apart
  have area : ((s.b.x - s.a.x : Int) : ℚ) * (p.y - s.a.y : Int) = (s.b.y - s.a.y : Int) * (p.x - s.a.x : Int) := by
    exact_mod_cast onLine_iff.1 onLine
  obtain ⟨⟨left, right⟩, above, below⟩ := spans
  simp only [along_eq_point]
  by_cases wide : s.b.x - s.a.x = 0
  · by_cases tall : s.b.y - s.a.y = 0
    · have sameX : p.x = s.a.x := by omega
      have sameY : p.y = s.a.y := by omega
      exact ⟨0, ⟨le_rfl, zero_le_one⟩, by simp [sameX], by simp [sameY]⟩
    · have some : ((s.b.y - s.a.y : Int) : ℚ) ≠ 0 := by exact_mod_cast tall
      refine ⟨_, part_of_between tall above below, ?_, ?_⟩
      all_goals
        field_simp
        push_cast at area ⊢
        linarith
  · have some : ((s.b.x - s.a.x : Int) : ℚ) ≠ 0 := by exact_mod_cast wide
    refine ⟨_, part_of_between wide left right, ?_, ?_⟩
    all_goals
      field_simp
      push_cast at area ⊢
      linarith

/-- The test for points on the segment finds just the points that are a part of the way along it. -/
theorem hits_iff_along : s.hits p = true ↔ ∃ u : ℚ, (0 ≤ u ∧ u ≤ 1) ∧ s.along u = (↑p.x, ↑p.y) := by
  rw [hits_iff]
  constructor
  · rintro ⟨onLine, spans⟩
    exact onLine.along spans
  · rintro ⟨u, part, here⟩
    obtain ⟨across, down⟩ := along_eq_point.1 here
    constructor
    · rw [onLine_iff]
      have area : ((s.b.x : ℚ) - s.a.x) * (p.y - s.a.y) = (s.b.y - s.a.y) * (p.x - s.a.x) := by
        rw [across, down]
        ring
      exact_mod_cast area
    · have level := between_of_part (a := s.a.x) (b := s.b.x) part
      have upright := between_of_part (a := s.a.y) (b := s.b.y) part
      rw [← across] at level
      rw [← down] at upright
      exact ⟨by exact_mod_cast level, by exact_mod_cast upright⟩

/-! ## Segments turned around and moved -/

theorem hits_of_reverse (hit : s.hits p = true) : s.reverse.hits p = true := by
  obtain ⟨u, ⟨low, high⟩, here⟩ := hits_iff_along.1 hit
  refine hits_iff_along.2 ⟨1 - u, ⟨by linarith, by linarith⟩, ?_⟩
  rw [along_reverse, sub_sub_cancel, here]

theorem hits_reverse (s : Segment) (p : Point) : s.reverse.hits p = s.hits p :=
  Bool.eq_iff_iff.2 ⟨hits_of_reverse, hits_of_reverse⟩

/-- The segment at another place of the sheet. -/
def move (d : Point) (s : Segment) : Segment := ⟨s.a + d, s.b + d⟩

theorem along_move (d : Point) : (s.move d).along u = (↑(p + d).x, ↑(p + d).y) ↔ s.along u = (↑p.x, ↑p.y) := by
  rw [along_eq_point, along_eq_point]
  simp only [move, Point.add_x, Point.add_y, Int.cast_add, add_sub_add_right_eq_sub]
  apply and_congr
  · constructor <;> intro same <;> linarith
  · constructor <;> intro same <;> linarith

theorem hits_move (s : Segment) (p d : Point) : (s.move d).hits (p + d) = s.hits p := by
  rw [Bool.eq_iff_iff, hits_iff_along, hits_iff_along]
  simp only [along_move]

/-! ## No distance -/

theorem squareFrom_nonneg (s : Segment) (p : Point) (u : ℝ) : 0 ≤ s.squareFrom p u :=
  add_nonneg (sq_nonneg _) (sq_nonneg _)

theorem squareFrom_eq_zero : s.squareFrom p u = 0 ↔ s.along u = (↑p.x, ↑p.y) := by
  rw [squareFrom, add_eq_zero_iff_of_nonneg (sq_nonneg _) (sq_nonneg _), sq_eq_zero_iff, sq_eq_zero_iff, sub_eq_zero,
    sub_eq_zero, along, Prod.mk.injEq]
  apply and_congr
  · rw [eq_comm]
    norm_cast
  · rw [eq_comm]
    norm_cast

theorem squaredDistance_nonneg (s : Segment) (p : Point) : 0 ≤ s.squaredDistance p := by
  have nonneg := s.squareFrom_nonneg p (s.nearestPart p)
  rw [squareFrom_nearestPart] at nonneg
  exact_mod_cast nonneg

theorem hits_iff_squaredDistance : s.hits p = true ↔ s.squaredDistance p = 0 := by
  rw [hits_iff_along]
  constructor
  · rintro ⟨u, ⟨low, high⟩, here⟩
    have least := squaredDistance_le (s := s) (p := p) (u := u) (by exact_mod_cast low) (by exact_mod_cast high)
    rw [squareFrom_eq_zero.2 here] at least
    exact le_antisymm (by exact_mod_cast least) (s.squaredDistance_nonneg p)
  · intro none
    refine ⟨s.nearestPart p, s.nearestPart_bounds p, squareFrom_eq_zero.1 ?_⟩
    rw [squareFrom_nearestPart, none, Rat.cast_zero]

theorem near_of_hits (hit : s.hits p = true) : s.Near p := by
  rw [near_iff, hits_iff_squaredDistance.1 hit]
  exact zero_le_one

theorem hitsWithin_zero (s : Segment) (p : Point) : s.hitsWithin 0.0 p = s.hits p := by
  have zero : ((0.0 : Float) == 0.0) = true := by decide
  rw [hitsWithin, if_pos zero]

end

/-- Without tolerance a point hits a segment just if it is a part of the way from one end to the other, which is to be
    at no distance from it, so that it is near it. This is the same for the segment drawn from its other end, and for
    both moved alike. -/
theorem hitsWithin_zero_exact (s : Segment) (p : Point) :
    (s.hitsWithin 0.0 p = true ↔ ∃ u : ℚ, (0 ≤ u ∧ u ≤ 1) ∧ s.along u = (↑p.x, ↑p.y)) ∧
    s.reverse.hitsWithin 0.0 p = s.hitsWithin 0.0 p ∧
    (∀ d, (s.move d).hitsWithin 0.0 (p + d) = s.hitsWithin 0.0 p) ∧
    (s.hitsWithin 0.0 p = true ↔ s.squaredDistance p = 0) ∧
    (s.hitsWithin 0.0 p = true → s.Near p) := by
  simp only [hitsWithin_zero]
  exact ⟨hits_iff_along, s.hits_reverse p, s.hits_move p, hits_iff_squaredDistance, near_of_hits⟩

/-- A slanted segment, drawn to the left. -/
def descent : Segment := ⟨⟨6, -1⟩, ⟨0, 2⟩⟩

theorem descent_hits_near : descent.hitsWithin 0.0 ⟨4, 0⟩ = true ∧ descent.along (1 / 3) = (4, 0) ∧
    descent.Near ⟨4, 0⟩ := by
  have hit : descent.hitsWithin 0.0 ⟨4, 0⟩ = true := by decide
  have part : descent.along (1 / 3) = (4, 0) := by norm_num [along, descent, direction]
  exact ⟨hit, part, (hitsWithin_zero_exact descent ⟨4, 0⟩).2.2.2.2 hit⟩

end Redraft.Segment
