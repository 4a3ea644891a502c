import Mathlib.Analysis.Real.Sqrt
import Redraft.Proofs.LabelWalks
import Redraft.Proofs.MeasuredDistance

/-!
# Steps along a wire

A label walks in steps whose coordinates are rounded once, so its probes are off
the line of the wire by a multiple of what the first step is off. That is less
than one unit for one step, and nothing on a wire along an axis; but on another
wire the walk may leave the wire long before its end.
-/

namespace Redraft
open Number

/-! ## Rounded steps -/

/-- The length of a displacement, without rounding. -/
noncomputable def Point.extent (v : Point) : ℝ := √(Segment.dot v v)

section
variable {v w : Point} {length : Int}

theorem Point.sq_extent (v : Point) : v.extent ^ 2 = Segment.dot v v :=
  Real.sq_sqrt (by exact_mod_cast add_nonneg (mul_self_nonneg v.x) (mul_self_nonneg v.y))

theorem Point.one_le_extent (some : v ≠ origin) : 1 ≤ v.extent := by
  rw [extent, Real.one_le_sqrt]
  exact_mod_cast Segment.dot_self_pos some

theorem Point.sq_extent_eq (v : Point) : v.extent ^ 2 = (v.x : ℝ) ^ 2 + (v.y : ℝ) ^ 2 := by
  rw [sq_extent, Segment.dot]
  push_cast
  ring

theorem Point.abs_le_extent (v : Point) : |(v.x : ℝ)| ≤ v.extent ∧ |(v.y : ℝ)| ≤ v.extent := by
  have sum := v.sq_extent_eq
  have nonneg : 0 ≤ v.extent := Real.sqrt_nonneg _
  exact ⟨abs_le_of_sq_le_sq (by nlinarith [sq_nonneg (v.y : ℝ)]) nonneg,
    abs_le_of_sq_le_sq (by nlinarith [sq_nonneg (v.x : ℝ)]) nonneg⟩

/-- Numbers with squares near to each other are near to each other. -/
theorem root_near {r l ε : ℝ} (nonneg : 0 ≤ r) (pos : 0 < l) (near : |r ^ 2 - l ^ 2| ≤ ε * l ^ 2) : |r - l| ≤ ε * l := by
  have both : |r ^ 2 - l ^ 2| = |r - l| * (r + l) := by
    rw [show r ^ 2 - l ^ 2 = (r - l) * (r + l) by ring, abs_mul, abs_of_nonneg (by linarith : 0 ≤ r + l)]
  by_contra apart
  have apart : ε * l * l < |r - l| * l := mul_lt_mul_of_pos_right (not_le.1 apart) pos
  nlinarith [mul_nonneg (abs_nonneg (r - l)) nonneg]

theorem norm_near (some : v ≠ Point.origin) (small : v.Within (2 ^ 32)) :
    (parts (hypotInt v.x v.y)).IsFinite ∧ |(value (hypotInt v.x v.y) : ℝ) - v.extent| ≤ 1 / 2 ^ 50 * v.extent := by
  obtain ⟨isFinite, isValue⟩ := value_ofInt (small.across.trans_lt (by norm_num))
  obtain ⟨isFinite', isValue'⟩ := value_ofInt (small.down.trans_lt (by norm_num))
  have sum : value (ofInt v.x) ^ 2 + value (ofInt v.y) ^ 2 = Segment.dot v v := by
    rw [isValue, isValue', Segment.dot]
    push_cast
    ring
  have range : ((Segment.dot v v : Int) : ℚ) ≤ 2 ^ 65 := by exact_mod_cast Segment.dot_self_le small
  obtain ⟨r, nonneg, ⟨finite, close⟩, near⟩ := hypot_approximates isFinite isFinite' (by
    rw [sum]
    linarith)
  rw [sum] at near
  rw [abs_of_nonneg nonneg] at close
  have long := Point.one_le_extent some
  have nonneg : (0 : ℝ) ≤ r := by exact_mod_cast nonneg
  have close : |(value (hypotInt v.x v.y) : ℝ) - r| ≤ (r + 1) / 2 ^ 52 := by exact_mod_cast close
  have near : |(r : ℝ) ^ 2 - v.extent ^ 2| ≤ 1 / 2 ^ 60 * v.extent ^ 2 := by
    rw [Point.sq_extent, one_div_mul_eq_div]
    exact_mod_cast near
  have root := abs_le.1 (root_near nonneg (by linarith) near)
  have close := abs_le.1 close
  refine ⟨finite, abs_le.2 ?_⟩
  constructor <;> linarith

/-- A coordinate of a step is that of the exact one to within rounding. -/
theorem stride_near {norm : Float} {l : ℝ} {n : Int} (finite : (parts norm).IsFinite) (long : 1 ≤ l)
    (near : |(value norm : ℝ) - l| ≤ 1 / 2 ^ 50 * l) (part : |(n : ℝ)| ≤ l) (small : n.natAbs ≤ 2 ^ 32)
    (short : length.natAbs ≤ 2 ^ 20) :
    ∃ q, round (ofInt (n * length) / norm) = .ok q ∧ |(q : ℝ) - length * n / l| ≤ 1 / 2 + 1 / 2 ^ 20 := by
  have product : (n * length).natAbs < 2 ^ 53 := by
    rw [Int.natAbs_mul]
    exact (Nat.mul_le_mul small short).trans_lt (by norm_num)
  obtain ⟨isFinite, isValue⟩ := value_ofInt product
  have short : |(length : ℝ)| ≤ 2 ^ 20 := by exact_mod_cast abs_le_of_natAbs_le short
  obtain ⟨low, high⟩ := abs_le.1 near
  have pos : (0 : ℝ) < value norm := by linarith
  have exact : |length * n / l| ≤ 2 ^ 20 := by
    rw [abs_div, abs_mul, abs_of_pos (by linarith : 0 < l), div_le_iff₀ (by linarith)]
    exact mul_le_mul short part (abs_nonneg _) (by norm_num)
  -- the error of the length moves the quotient in proportion
  have ratio : |l / value norm - 1| ≤ 1 / 2 ^ 49 := by
    rw [div_sub_one pos.ne', abs_div, abs_of_pos pos, div_le_iff₀ pos, abs_sub_comm]
    linarith
  have quotient : |((n * length : Int) / value norm : ℝ) - length * n / l| ≤ 1 / 2 ^ 29 := by
    have split : ((n * length : Int) / value norm : ℝ) - length * n / l = length * n / l * (l / value norm - 1) := by
      push_cast
      field_simp
    rw [split, abs_mul]
    calc |length * n / l| * |l / value norm - 1| ≤ 2 ^ 20 * (1 / 2 ^ 49) :=
          mul_le_mul exact ratio (abs_nonneg _) (by norm_num)
      _ = 1 / 2 ^ 29 := by norm_num
  have size : |((n * length : Int) / value norm : ℝ)| ≤ 2 ^ 21 := by
    linarith [abs_sub_abs_le_abs_sub ((n * length : Int) / value norm : ℝ) (length * n / l)]
  have size' : |((n * length : Int) / value norm : ℚ)| ≤ 2 ^ 21 := by exact_mod_cast size
  obtain ⟨divFinite, divClose⟩ := div_approximates isFinite finite (by exact_mod_cast pos.ne') (by
    rw [isValue]
    linarith)
  rw [isValue] at divClose
  generalize ofInt (n * length) / norm = x at *
  obtain ⟨q, rounded, near⟩ := round_near divFinite
  refine ⟨q, rounded, ?_⟩
  have divClose : |(value x : ℝ) - (n * length : Int) / value norm| ≤ (|((n * length : Int) / value norm : ℝ)| + 1) / 2 ^ 52 := by
    exact_mod_cast divClose
  have near : |(q : ℝ) - value x| ≤ 1 / 2 := by
    have near := (Rat.cast_le (K := ℝ)).2 near
    push_cast at near
    exact near
  have split : (q : ℝ) - length * n / l = (q - value x) + (value x - (n * length : Int) / value norm) +
      ((n * length : Int) / value norm - length * n / l) := by ring
  rw [split]
  linarith [abs_add_three ((q : ℝ) - value x) (value x - (n * length : Int) / value norm)
    ((n * length : Int) / value norm - length * n / l)]

/-- Each coordinate of a step is no farther than a half from the exact one, but for the error of the quotient. -/
theorem Point.resize_near (some : v ≠ origin) (small : v.Within (2 ^ 32)) (short : length.natAbs ≤ 2 ^ 20) :
    ∃ w, v.resize length = .ok w ∧ |(w.x : ℝ) - length * v.x / v.extent| ≤ 1 / 2 + 1 / 2 ^ 20 ∧
      |(w.y : ℝ) - length * v.y / v.extent| ≤ 1 / 2 + 1 / 2 ^ 20 := by
  obtain ⟨finite, near⟩ := norm_near some small
  have long := one_le_extent some
  obtain ⟨x, isX, nearX⟩ := stride_near finite long near v.abs_le_extent.1 small.across short
  obtain ⟨y, isY, nearY⟩ := stride_near finite long near v.abs_le_extent.2 small.down short
  have pos : (0 : ℝ) < value (hypotInt v.x v.y) := by linarith [(abs_le.1 near).1]
  have notZero : ¬(hypotInt v.x v.y == 0.0) = true := by
    rw [beq_iff finite value_zero.1, value_zero.2]
    exact_mod_cast pos.ne'
  refine ⟨⟨x, y⟩, ?_, nearX, nearY⟩
  unfold resize
  dsimp only
  rw [if_neg notZero, isX, isY]
  rfl

end

/-! ## Steps from the wire -/

namespace Segment
variable {s : Segment} {o p step : Point} {k length : Int}

/-- Between the ends, the distance from the segment is that from its line. -/
theorem squaredDistance_between (some : s.direction ≠ Point.origin) (after : 0 ≤ s.foot p) (before : s.foot p ≤ s.extentSq) :
    s.squaredDistance p = s.drift p ^ 2 / s.extentSq := by
  have wide := extentSq_pos some
  have right := drift_sq_add_foot_sq s p
  have divisor : (s.extentSq : ℚ) ≠ 0 := by exact_mod_cast wide.ne'
  unfold squaredDistance
  split
  · have atStart : s.foot p = 0 := by omega
    rw [eq_div_iff divisor]
    rw [atStart] at right
    exact_mod_cast (by linear_combination -right : p.apartSq s.a * s.extentSq = s.drift p ^ 2)
  · split
    · have atStop : s.foot p = s.extentSq := by omega
      rw [eq_div_iff divisor]
      rw [atStop] at right
      have apart := apartSq_stop s p
      rw [atStop] at apart
      exact_mod_cast (by rw [apart]; linear_combination -right : p.apartSq s.b * s.extentSq = s.drift p ^ 2)
    · rfl

/-- A rounded step is off its direction by less than one unit, and so is its length. -/
theorem resize_off {v w : Point} (some : v ≠ Point.origin) (small : v.Within (2 ^ 32)) (short : length.natAbs ≤ 2 ^ 20)
    (isStep : v.resize length = .ok w) : 100 * cross v w ^ 2 ≤ 51 * dot v v ∧
      |(dot v w : ℝ) - length * v.extent| ≤ 18 / 25 * v.extent := by
  obtain ⟨w', isStep', nearX, nearY⟩ := Point.resize_near some small short
  obtain rfl : w' = w := Except.ok.inj (isStep'.symm.trans isStep)
  have long := v.one_le_extent some
  have square : v.extent ^ 2 = (v.x : ℝ) ^ 2 + (v.y : ℝ) ^ 2 := v.sq_extent_eq
  obtain ⟨e, isX⟩ : ∃ e, (w'.x : ℝ) = length * v.x / v.extent + e := ⟨_, (add_sub_cancel _ _).symm⟩
  obtain ⟨f, isY⟩ : ∃ f, (w'.y : ℝ) = length * v.y / v.extent + f := ⟨_, (add_sub_cancel _ _).symm⟩
  rw [isX, add_sub_cancel_left] at nearX
  rw [isY, add_sub_cancel_left] at nearY
  have across : (cross v w' : ℝ) = v.x * f - v.y * e := by
    rw [cross]
    push_cast
    rw [isX, isY]
    ring
  have along : (dot v w' : ℝ) - length * v.extent = v.x * e + v.y * f := by
    rw [dot]
    push_cast
    rw [isX, isY]
    field_simp
    linear_combination -(length : ℝ) * square
  -- the error across and the error along are at a right angle
  have right : (v.x * f - v.y * e) ^ 2 + (v.x * e + v.y * f) ^ 2 ≤ 51 / 100 * v.extent ^ 2 := by
    have both : e ^ 2 + f ^ 2 ≤ 51 / 100 := by
      have first := sq_le_sq' (abs_le.1 nearX).1 (abs_le.1 nearX).2
      have second := sq_le_sq' (abs_le.1 nearY).1 (abs_le.1 nearY).2
      linarith
    calc (v.x * f - v.y * e) ^ 2 + (v.x * e + v.y * f) ^ 2 = (e ^ 2 + f ^ 2) * v.extent ^ 2 := by rw [square]; ring
      _ ≤ 51 / 100 * v.extent ^ 2 := mul_le_mul_of_nonneg_right both (sq_nonneg _)
  constructor
  · have square : (100 * cross v w' ^ 2 : ℝ) ≤ 51 * dot v v := by
      rw [across, ← v.sq_extent]
      linarith [sq_nonneg (v.x * e + v.y * f)]
    exact_mod_cast square
  · rw [along]
    exact abs_le_of_sq_le_sq (by nlinarith [sq_nonneg (v.x * f - v.y * e)]) (by linarith)

theorem within_of_drift (some : s.direction ≠ Point.origin) (small : s.direction.Within (2 ^ 31)) (after : 0 ≤ s.foot p)
    (before : s.foot p ≤ s.extentSq) (little : s.drift p ^ 2 ≤ s.extentSq) : (p - s.a).Within (2 ^ 32) := by
  have wide := extentSq_pos some
  have long : s.extentSq ≤ 2 ^ 63 := dot_self_le small
  have right := drift_sq_add_foot_sq s p
  have apart : p.apartSq s.a ≤ s.extentSq + 1 := by
    apply le_of_mul_le_mul_left _ wide
    nlinarith
  apply within_of_dot_self
  calc p.apartSq s.a ≤ 2 ^ 63 + 1 := by linarith
    _ ≤ (2 ^ 32 : Nat) ^ 2 := by norm_num

/-- A point whose foot lies between the ends, well within one unit of the line, touches the segment. -/
theorem touches_of_drift (some : s.direction ≠ Point.origin) (small : s.direction.Within (2 ^ 31)) (after : 0 ≤ s.foot p)
    (before : s.foot p ≤ s.extentSq) (little : 100 * s.drift p ^ 2 ≤ 51 * s.extentSq) : s.touches p = true := by
  have wide := extentSq_pos some
  have small' : s.direction.Within (2 ^ 32) := ⟨small.across.trans (by norm_num), small.down.trans (by norm_num)⟩
  apply touches_of_squaredDistance small' (within_of_drift some small after before (by omega))
  have wide : (0 : ℚ) < s.extentSq := by exact_mod_cast wide
  have little : (100 * s.drift p ^ 2 : ℚ) ≤ 51 * s.extentSq := by exact_mod_cast little
  rw [squaredDistance_between some after before, div_le_iff₀ wide]
  linarith

theorem first_step_touches (some : s.direction ≠ Point.origin) (small : s.direction.Within (2 ^ 31))
    (isStep : s.direction.resize length = .ok step) (pos : 1 ≤ length) (short : length ≤ 2 ^ 20)
    (fits : length ≤ s.direction.extent - 1) : s.touches (s.a + step) = true ∧ s.touches (s.b - step) = true := by
  have small' : s.direction.Within (2 ^ 32) := ⟨small.across.trans (by norm_num), small.down.trans (by norm_num)⟩
  obtain ⟨across, along⟩ := resize_off some small' (by omega) isStep
  have long := s.direction.one_le_extent some
  obtain ⟨low, high⟩ := abs_le.1 along
  have pos : (1 : ℝ) ≤ length := by exact_mod_cast pos
  have after : 0 ≤ dot s.direction step := by
    have after : (0 : ℝ) ≤ dot s.direction step := by nlinarith
    exact_mod_cast after
  have before : dot s.direction step ≤ s.extentSq := by
    have before : (dot s.direction step : ℝ) ≤ s.extentSq := by
      rw [extentSq, ← s.direction.sq_extent]
      nlinarith
    exact_mod_cast before
  constructor
  · apply touches_of_drift some small
    · rwa [foot_start_add]
    · rwa [foot_start_add]
    · rwa [drift_start_add]
  · apply touches_of_drift some small
    · rw [foot_stop_sub]
      omega
    · rw [foot_stop_sub]
      omega
    · rwa [drift_stop_sub, neg_sq]

/-- A point is near the segment if it is so near to an end that it lies beyond, or to the line between the ends. -/
theorem near_cases (s : Segment) (p : Point) : s.Near p ↔
    if s.foot p ≤ 0 then p.apartSq s.a ≤ 1 else if s.extentSq ≤ s.foot p then p.apartSq s.b ≤ 1
    else s.drift p ^ 2 ≤ s.extentSq := by
  rw [near_iff, squaredDistance]
  split
  · norm_cast
  · split
    · norm_cast
    · rw [div_le_one (by exact_mod_cast (by omega : 0 < s.extentSq))]
      norm_cast

/-- How far the steps have drifted off the line decides which probes between the ends are near the segment; so does
    what is measured, unless the distance is next to one unit. From an end, a first step that fits leads to a point
    that touches; on a segment along an axis, so does any number of steps up to the end. -/
theorem probes_drift (some : s.direction ≠ Point.origin) (small : s.direction.Within (2 ^ 31))
    (isStep : s.direction.resize length = .ok step) :
    (∀ (o : Point) (k : Int), s.Near (o + step.scale k) ↔
      if s.foot o + k * dot s.direction step ≤ 0 then (o + step.scale k).apartSq s.a ≤ 1
      else if s.extentSq ≤ s.foot o + k * dot s.direction step then (o + step.scale k).apartSq s.b ≤ 1
      else (s.drift o + k * cross s.direction step) ^ 2 ≤ s.extentSq) ∧
    (∀ (o : Point) (k : Int), (o + step.scale k - s.a).Within (2 ^ 32) →
      1 / 10 ^ 4 ≤ |s.squaredDistance (o + step.scale k) - 1| →
        (s.touches (o + step.scale k) = true ↔ s.Near (o + step.scale k))) ∧
    (1 ≤ length → length ≤ 2 ^ 20 → length ≤ s.direction.extent - 1 →
      s.touches (s.a + step) = true ∧ s.touches (s.b - step) = true) ∧
    (s.direction.x = 0 ∨ s.direction.y = 0 → ∀ (o : Point) (k : Int), s.drift o = 0 →
      0 ≤ s.foot o + k * dot s.direction step → s.foot o + k * dot s.direction step ≤ s.extentSq →
        s.touches (o + step.scale k) = true) := by
  have small' : s.direction.Within (2 ^ 32) := ⟨small.across.trans (by norm_num), small.down.trans (by norm_num)⟩
  refine ⟨?_, ?_, ?_, ?_⟩
  · intro o k
    rw [near_cases, foot_add_scale, drift_add_scale]
  · intro o k inRange apart
    rw [touches_eq_isNear small' inRange apart, isNear_iff]
  · exact fun pos short => first_step_touches some small isStep pos short
  · intro axis o k onLine after before
    rw [← foot_add_scale] at after before
    apply touches_of_drift some small after before
    rw [drift_add_scale, onLine, Point.cross_resize_of_axis isStep axis]
    linarith [s.extentSq_nonneg]

theorem rise_extent : (12700 : ℝ) ≤ rise.direction.extent - 1 ∧ (3 * 12700 : ℝ) ≤ rise.direction.extent - 1 := by
  have square : dot rise.direction rise.direction = 80645000000 := by decide
  have long : (38101 : ℝ) ≤ rise.direction.extent := by
    unfold Point.extent
    rw [square]
    apply Real.le_sqrt_of_sq_le
    norm_num
  constructor <;> linarith

theorem rise_probes_drift : (rise.direction ≠ Point.origin ∧ rise.direction.Within (2 ^ 31) ∧
    rise.direction.resize 12700 = .ok ⟨11359, 5680⟩) ∧ rise.touches (rise.a + ⟨11359, 5680⟩) = true ∧
      ¬rise.Near (rise.a + Point.scale 3 ⟨11359, 5680⟩) := by
  have some : rise.direction ≠ Point.origin := by decide
  have small : rise.direction.Within (2 ^ 31) := ⟨by decide, by decide⟩
  have isStep : rise.direction.resize 12700 = .ok ⟨11359, 5680⟩ := by decide +kernel
  obtain ⟨law, -, first, -⟩ := probes_drift some small isStep
  refine ⟨⟨some, small, isStep⟩, (first (by decide) (by decide) (by exact_mod_cast rise_extent.1)).1, ?_⟩
  rw [law rise.a 3]
  decide

/-- Not every probe before the end of the segment touches it. -/
theorem not_all_probes_touch : ¬∀ (w : Segment) (origin step : Point) (length : Int) (k : Nat),
    w.direction ≠ Point.origin → (origin = w.a ∨ origin = w.b ∨ origin = w.center) → 0 < length →
      w.direction.resize length = .ok step → 1 ≤ k →
        ((k * length : ℝ) ≤ (w.b - origin).extent - 1 → w.touches (origin + step.scale k) = true) ∧
        ((k * length : ℝ) ≤ (origin - w.a).extent - 1 → w.touches (origin - step.scale k) = true) := by
  intro all
  obtain ⟨forward, -⟩ := all rise rise.a ⟨11359, 5680⟩ 12700 3 (by decide) (.inl rfl) (by decide) (by decide +kernel)
    (by decide)
  have touches := forward (by exact_mod_cast rise_extent.2)
  revert touches
  decide +kernel

end Segment

end Redraft
