import Redraft.Proofs.AngleSizes
import Redraft.Proofs.BinaryLengths
import Redraft.Proofs.BinarySizes
import Redraft.Proofs.Drafting
import Redraft.Symbol.Primitive

/-!
# Arcs of curved wires

The arc of a curved wire is computed whenever its lengths are not too large and
its curve is finite and not too small. No divisor is zero then: the tangent is
that of a usable angle, and the centre is never found on an end of the wire.
-/

namespace Redraft.Number

/-! ## Sizes and values -/

section
variable {x : Float} {k l : Int}

theorem Below.isFinite (below : Below k x) : (parts x).IsFinite := by
  unfold Below at below
  cases form : parts x with
  | finite negative m e => trivial
  | _ => simp [form, Parts.Below] at below

theorem Below.value_lt (below : Below k x) : |value x| < 2 ^ k := by
  unfold Below at below
  unfold value
  cases form : parts x with
  | finite negative m e =>
    rw [form] at below
    have unit := two_zpow_pos e
    have wide : (m : ℚ) < 2 ^ 53 := by exact_mod_cast below.1
    rw [Parts.value, abs_mul, abs_signFactor, one_mul, abs_of_nonneg (by positivity)]
    calc (m : ℚ) * 2 ^ e < 2 ^ 53 * 2 ^ e := mul_lt_mul_of_pos_right wide unit
      _ = 2 ^ (53 + e) := by rw [zpow_add₀ two_ne_zero]; norm_num
      _ ≤ 2 ^ k := two_zpow_le (by have := below.2; omega)
  | _ => simp [form, Parts.Below] at below

theorem atLeast_of_value (finite : (parts x).IsFinite) (large : 2 ^ l ≤ |value x|) : AtLeast l x := by
  unfold AtLeast
  unfold value at large
  cases form : parts x with
  | finite negative m e =>
    rw [form, Parts.value, abs_mul, abs_signFactor, one_mul] at large
    have unit := two_zpow_pos e
    rw [abs_of_nonneg (by positivity)] at large
    have some : m ≠ 0 := by
      rintro rfl
      rw [Nat.cast_zero, zero_mul] at large
      exact absurd large (not_le.2 (two_zpow_pos l))
    have less : (2 : ℚ) ^ l < 2 ^ ((m.log2 : Int) + 1 + e) := calc
      (2 : ℚ) ^ l ≤ m * 2 ^ e := large
      _ < 2 ^ ((m.log2 : Int) + 1) * 2 ^ e := mul_lt_mul_of_pos_right (log2_bounds some).2 unit
      _ = 2 ^ ((m.log2 : Int) + 1 + e) := (zpow_add₀ two_ne_zero _ _).symm
    have := (zpow_lt_zpow_iff_right₀ (one_lt_two : (1 : ℚ) < 2)).1 less
    exact ⟨some, by omega⟩
  | _ => simp [form, Parts.IsFinite] at finite

theorem AtLeast.le_value (finite : (parts x).IsFinite) (atLeast : AtLeast l x) : 2 ^ l ≤ |value x| := by
  unfold AtLeast at atLeast
  unfold value
  cases form : parts x with
  | finite negative m e =>
    rw [form] at atLeast
    have unit := two_zpow_pos e
    rw [Parts.value, abs_mul, abs_signFactor, one_mul, abs_of_nonneg (by positivity)]
    calc (2 : ℚ) ^ l ≤ 2 ^ ((m.log2 : Int) + e) := two_zpow_le atLeast.2
      _ = 2 ^ (m.log2 : Int) * 2 ^ e := zpow_add₀ two_ne_zero _ _
      _ ≤ m * 2 ^ e := mul_le_mul_of_nonneg_right (log2_bounds atLeast.1).1 unit.le
  | _ => simp [form, Parts.IsFinite] at finite

end

theorem add_approximates {x y : Float} (first : (parts x).IsFinite) (second : (parts y).IsFinite)
    (range : |value x + value y| < 2 ^ 200) : Approximates (x + y) (value x + value y) := by
  rw [value_eq, value_eq] at range ⊢
  exact (add_close (regular_unpack first) (regular_unpack second) range).approximates

/-- What approximates a number to a unit in the fifty-second place is as large, and so the error is as small. -/
theorem Approximates.near {x : Float} {v b : ℚ} (approximates : Approximates x v) (small : |value x| ≤ b) :
    |value x - v| ≤ (b + 1) / 2 ^ 51 := by
  have close := approximates.close
  have triangle : |v| ≤ |value x| + |value x - v| := by
    have := abs_sub_abs_le_abs_sub v (value x)
    rw [abs_sub_comm] at this
    linarith
  rw [le_div_iff₀ (by positivity)] at close ⊢
  have nonneg := abs_nonneg (value x - v)
  nlinarith

end Redraft.Number

namespace Redraft
open Redraft.Number

/-! ## The centre of an arc -/

theorem abs_lt_of_natAbs {n : Int} {k : Nat} (small : n.natAbs < 2 ^ k) : |(n : ℚ)| < 2 ^ k := by
  have cast : |(n : ℚ)| = n.natAbs := by rw [Nat.cast_natAbs, Int.cast_abs]
  rw [cast]
  exact_mod_cast small

/-- A quotient of the rise that is no longer than a chord is found to within a part of a unit. -/
theorem quotient_near {rise chord : Float} {d : Int} (isRise : Below 141 rise) (small : d.natAbs < 2 ^ 43)
    (isChord : (parts chord).IsFinite) (atLeast : AtLeast (-4) chord)
    (near : |value (rise * ofInt d / chord)| ≤ 2 ^ 44) :
    |value (rise * ofInt d / chord) - value rise * d / value chord| ≤ 1 / 32 := by
  obtain ⟨finite, isValue⟩ := value_ofInt (small.trans_le (Nat.pow_le_pow_right (by decide) (by decide)))
  have isProduct : Below 190 (rise * ofInt d) :=
    isRise.mul (below_ofInt small (by decide) (by decide)) (by decide) (by decide)
  have long : (1 / 16 : ℚ) ≤ |value chord| := by
    have := AtLeast.le_value isChord atLeast
    norm_num at this ⊢
    exact this
  have some : value chord ≠ 0 := abs_pos.1 (lt_of_lt_of_le (by norm_num) long)
  have range : |value rise * d| < 2 ^ 200 := by
    rw [abs_mul]
    have isRise : |value rise| ≤ 2 ^ 141 := by exact_mod_cast isRise.value_lt.le
    have small := (abs_lt_of_natAbs small).le
    calc |value rise| * |(d : ℚ)| ≤ 2 ^ 141 * 2 ^ 43 := by gcongr
      _ < 2 ^ 200 := by norm_num
  have range' : |value (rise * ofInt d) / value chord| < 2 ^ 200 := by
    rw [abs_div, div_lt_iff₀ (abs_pos.2 some)]
    calc |value (rise * ofInt d)| < 2 ^ 190 := by exact_mod_cast isProduct.value_lt
      _ ≤ 2 ^ 200 * (1 / 16) := by norm_num
      _ ≤ 2 ^ 200 * |value chord| := by gcongr
  have product := mul_approximates isRise.isFinite finite (by rwa [isValue])
  have quotient := div_approximates isProduct.isFinite isChord some range'
  rw [isValue] at product
  -- the quotient is off by its own rounding, and by that of the product in proportion
  have first := quotient.near near
  have size : |value (rise * ofInt d)| ≤ (2 ^ 44 + 1) * |value chord| := by
    rw [← div_le_iff₀ (abs_pos.2 some), ← abs_div]
    have := abs_sub_abs_le_abs_sub (value (rise * ofInt d) / value chord) (value (rise * ofInt d / chord))
    rw [abs_sub_comm] at this
    linarith
  have second : |value (rise * ofInt d) / value chord - value rise * d / value chord| ≤ (2 ^ 44 + 17) / 2 ^ 51 := by
    rw [← sub_div, abs_div, div_le_iff₀ (abs_pos.2 some)]
    refine (product.near size).trans ?_
    rw [div_mul_eq_mul_div, div_le_div_iff_of_pos_right (by norm_num)]
    linarith
  have total := abs_sub_le (value (rise * ofInt d / chord)) (value (rise * ofInt d) / value chord)
    (value rise * d / value chord)
  linarith

theorem value_two : (parts 2.0).IsFinite ∧ value 2.0 = 2 := by
  have form : parts 2.0 = .finite false (2 ^ 52) (-51) := by decide
  rw [value, form]
  refine ⟨trivial, ?_⟩
  norm_num [Parts.value, signFactor]

/-- A center that is next to an end lies across half the way to the other one. -/
theorem offset_near {s e : Int} {center : Float} {a : ℚ} (first : s.natAbs < 2 ^ 42) (second : e.natAbs < 2 ^ 42)
    (below : Below 197 center) (isCenter : Approximates center (value (ofInt (s + e) / 2.0) + a))
    (short : |value (ofInt s - center)| < 1 / 8) : |(s - e : ℚ) / 2 - a| ≤ 5 / 32 ∧ |a| ≤ 2 ^ 44 := by
  obtain ⟨finite, isValue⟩ := value_ofInt (n := s) (by omega)
  obtain ⟨finite', isValue'⟩ := value_ofInt (n := s + e) (by omega)
  have first := (abs_lt_of_natAbs first).le
  have second := (abs_lt_of_natAbs second).le
  have sum : |(s + e : ℚ)| ≤ 2 ^ 43 := by
    have := abs_add_le (s : ℚ) e
    linarith
  have middle := div_approximates finite' value_two.1 (by rw [value_two.2]; norm_num) (by
    rw [isValue', value_two.2, abs_div]
    push_cast
    norm_num
    linarith)
  have away := sub_approximates finite below.isFinite (by
    have := abs_sub (s : ℚ) (value center)
    have : |value center| < 2 ^ 197 := by exact_mod_cast below.value_lt
    rw [isValue]
    linarith)
  rw [isValue] at away
  rw [isValue', value_two.2] at middle
  push_cast at middle
  have half : |value (ofInt (s + e) / 2.0) - (s + e : ℚ) / 2| ≤ 1 / 2 ^ 9 := by
    refine middle.close.trans ?_
    rw [abs_div, abs_two, div_le_iff₀ (by norm_num)]
    linarith
  -- the end, the center and the middle are each within a part of a unit of where they are taken to be
  have near := abs_le.1 (away.near short.le)
  have isShort := abs_lt.1 short
  have isNear : |value center| ≤ 2 ^ 42 + 1 := by
    rw [abs_le] at first ⊢
    constructor <;> linarith
  have near' := abs_le.1 (isCenter.near isNear)
  have half := abs_le.1 half
  have across : |(s - e : ℚ) / 2 - a| ≤ 5 / 32 := by
    rw [abs_le]
    constructor <;> linarith
  refine ⟨across, ?_⟩
  rw [abs_le] at across first second ⊢
  constructor <;> linarith

/-- The center of the arc over a chord with a rise, as it is computed. -/
def centerOver (start stop : Point) (rise : Float) : Float × Float :=
  let dx := stop.x - start.x
  let dy := stop.y - start.y
  let chord := hypotInt dx dy
  (ofInt (start.x + stop.x) / 2.0 - rise * ofInt dy / chord, ofInt (start.y + stop.y) / 2.0 + rise * ofInt dx / chord)

/-- No point is next to an end of a chord and on the line through its middle across it. -/
theorem no_short_chord {x y : Int} {t : ℚ} (some : x ≠ 0 ∨ y ≠ 0) (first : |(x : ℚ) / 2 + t * y| ≤ 3 / 16)
    (second : |(y : ℚ) / 2 - t * x| ≤ 3 / 16) : False := by
  have whole (n : Int) : |(n : ℚ)| ≤ n * n := by
    rcases eq_or_ne n 0 with rfl | some
    · simp
    · have long : (1 : ℚ) ≤ |(n : ℚ)| := by exact_mod_cast Int.one_le_abs some
      rw [← abs_mul_abs_self]
      exact le_mul_of_one_le_left (abs_nonneg _) long
  have bound {n v : ℚ} (small : |v| ≤ 3 / 16) : n * v ≤ |n| * (3 / 16) := calc
    n * v ≤ |n * v| := le_abs_self _
    _ = |n| * |v| := abs_mul n v
    _ ≤ |n| * (3 / 16) := mul_le_mul_of_nonneg_left small (abs_nonneg n)
  have square : (x : ℚ) * (x / 2 + t * y) + y * (y / 2 - t * x) = (x * x + y * y) / 2 := by ring
  have positive : 0 < |(x : ℚ)| + |(y : ℚ)| := by
    rcases some with some | some
    · exact add_pos_of_pos_of_nonneg (abs_pos.2 (by exact_mod_cast some)) (abs_nonneg _)
    · exact add_pos_of_nonneg_of_pos (abs_nonneg _) (abs_pos.2 (by exact_mod_cast some))
  linarith [whole x, whole y, bound (n := x) first, bound (n := y) second]

/-- The point is near enough to the origin for arcs that end there. -/
def Point.Near (p : Point) : Prop := p.x.natAbs < 2 ^ 42 ∧ p.y.natAbs < 2 ^ 42

instance (p : Point) : Decidable p.Near := inferInstanceAs (Decidable (_ ∧ _))

section Center
variable {start stop : Point} {rise : Float}

theorem legs_of_apart (apart : start ≠ stop) : stop.x - start.x ≠ 0 ∨ stop.y - start.y ≠ 0 := by
  by_contra same
  refine apart (Point.ext ?_ ?_) <;> omega

theorem chord_bounds (apart : start ≠ stop) (first : start.Near) (second : stop.Near) :
    Below 53 (hypotInt (stop.x - start.x) (stop.y - start.y)) ∧
      AtLeast (-4) (hypotInt (stop.x - start.x) (stop.y - start.y)) := by
  obtain ⟨x, y⟩ := first
  obtain ⟨x', y'⟩ := second
  have dx : (stop.x - start.x).natAbs < 2 ^ 43 := by omega
  have dy : (stop.y - start.y).natAbs < 2 ^ 43 := by omega
  have legs {n : Int} (small : n.natAbs < 2 ^ 43) : Below 48 (ofInt n) := below_ofInt small (by decide) (by decide)
  exact ⟨below_hypot (legs dx) (legs dy) (by decide) (by decide),
    atLeast_hypotInt (legs_of_apart apart) dx dy (by decide) (by decide)⟩

theorem below_offset {d : Int} {chord : Float} (isRise : Below 141 rise) (small : d.natAbs < 2 ^ 43)
    (isChord : AtLeast (-4) chord) : Below 195 (rise * ofInt d / chord) :=
  have product : Below 190 (rise * ofInt d) :=
    isRise.mul (below_ofInt small (by decide) (by decide)) (by decide) (by decide)
  product.div isChord.divisor (by decide) (by decide)

theorem below_middle {s e : Int} (first : s.natAbs < 2 ^ 42) (second : e.natAbs < 2 ^ 42) :
    Below 195 (ofInt (s + e) / 2.0) := by
  have two : AtLeast 1 2.0 := by decide +kernel
  have sum : Below 48 (ofInt (s + e)) := below_ofInt (k := 43) (by omega) (by decide) (by decide)
  exact (sum.div two.divisor (by decide) (by decide)).mono (by decide)

theorem below_centerOver (apart : start ≠ stop) (first : start.Near) (second : stop.Near) (isRise : Below 141 rise) :
    Below 197 (centerOver start stop rise).1 ∧ Below 197 (centerOver start stop rise).2 := by
  have isChord := (chord_bounds apart first second).2
  obtain ⟨x, y⟩ := first
  obtain ⟨x', y'⟩ := second
  exact ⟨(below_middle x x').sub (below_offset isRise (by omega) isChord) (by decide) (by decide),
    (below_middle y y').add (below_offset isRise (by omega) isChord) (by decide) (by decide)⟩

/-- The center of an arc is never found on the start of the chord. -/
theorem center_apart (apart : start ≠ stop) (first : start.Near) (second : stop.Near) (isRise : Below 141 rise) :
    1 / 8 ≤ |value (ofInt start.x - (centerOver start stop rise).1)| ∨
      1 / 8 ≤ |value (ofInt start.y - (centerOver start stop rise).2)| := by
  by_contra close
  rw [not_or, not_le, not_le] at close
  obtain ⟨chordBelow, chordAtLeast⟩ := chord_bounds apart first second
  obtain ⟨below, below'⟩ := below_centerOver apart first second isRise
  obtain ⟨x, y⟩ := first
  obtain ⟨x', y'⟩ := second
  have range {v w : ℚ} (small : |v| < 2 ^ (195 : Int)) (small' : |w| < 2 ^ (195 : Int)) :
      |v - w| < 2 ^ 200 ∧ |v + w| < 2 ^ 200 := by
    norm_num at small small' ⊢
    exact ⟨by linarith [abs_sub v w], by linarith [abs_add_le v w]⟩
  have isMiddle := below_middle x x'
  have isMiddle' := below_middle y y'
  have isOffset := below_offset (d := stop.y - start.y) isRise (by omega) chordAtLeast
  have isOffset' := below_offset (d := stop.x - start.x) isRise (by omega) chordAtLeast
  have sub := sub_approximates isMiddle.isFinite isOffset.isFinite (range isMiddle.value_lt isOffset.value_lt).1
  have add := add_approximates isMiddle'.isFinite isOffset'.isFinite (range isMiddle'.value_lt isOffset'.value_lt).2
  rw [Rat.sub_eq_add_neg] at sub
  obtain ⟨across, near⟩ := offset_near x x' below sub close.1
  obtain ⟨across', near'⟩ := offset_near y y' below' add close.2
  rw [abs_neg] at near
  have quotient := quotient_near isRise (by omega) chordBelow.isFinite chordAtLeast near
  have quotient' := quotient_near isRise (by omega) chordBelow.isFinite chordAtLeast near'
  -- along each axis the half of the chord is next to the same part of the other one
  rw [mul_div_right_comm] at quotient quotient'
  rw [abs_le] at across across' quotient quotient'
  push_cast at quotient quotient'
  let slope := value rise / value (hypotInt (stop.x - start.x) (stop.y - start.y))
  refine no_short_chord (t := -slope) (legs_of_apart apart) ?_ ?_
  · rw [abs_le]
    push_cast
    constructor <;> linarith
  · rw [abs_le]
    push_cast
    constructor <;> linarith

theorem divide_ok {x y : Float} {l : Int} (divisor : AtLeast l y) : divide x y = .ok (x / y) := by
  rw [divide, divisor.ne_zero]
  rfl

/-- The rise of the center over a chord is finite, and the chord not zero. -/
theorem arcCenter_returns {curve : Float} (apart : start ≠ stop) (first : start.Near) (second : stop.Near)
    (finite : Below 1024 curve) (usable : AtLeast (-80) curve) :
    ∃ rise, Below 141 rise ∧ arcCenter start stop (.real curve) = .ok (centerOver start stop rise) := by
  obtain ⟨chordBelow, chordAtLeast⟩ := chord_bounds apart first second
  have degree : Below (-5) (pi / 180.0) ∧ AtLeast (-6) (pi / 180.0) := by decide +kernel
  have two : AtLeast 1 2.0 ∧ Below 2 2.0 := by decide +kernel
  have angle : Below 1020 (radians curve / 2.0) :=
    (finite.mul degree.1 (by decide) (by decide)).div two.1.divisor (by decide) (by decide)
  have angle' : AtLeast (-88) (radians curve / 2.0) :=
    (usable.mul degree.2 (by decide)).div two.2 (by decide)
  have isTangent : tangent (radians curve / 2.0) = .ok (tan (radians curve / 2.0)) := by
    unfold tangent
    split
    · rename_i infinite
      have := angle.isFinite
      rw [infinite] at this
      exact this.elim
    · rfl
  have divisor : AtLeast (-87) (2.0 * tan (radians curve / 2.0)) :=
    two.1.mul (tan_bounds angle angle' (by decide)).2 (by decide)
  refine ⟨_, chordBelow.div divisor.divisor (by decide) (by decide), ?_⟩
  unfold arcCenter
  dsimp only
  have noZero : (hypotInt (stop.x - start.x) (stop.y - start.y) == 0.0 ||
      Quantity.toFloat (.real curve) == 0.0) = false := by
    rw [chordAtLeast.ne_zero]
    exact usable.ne_zero
  rw [noZero, if_neg Bool.false_ne_true]
  exact bind_ok.2 ⟨_, isTangent, bind_ok.2 ⟨_, divide_ok divisor, rfl⟩⟩

end Center

/-! ## Arcs -/

theorem wholeCoordinate_returns {x : Float} {k : Int} (below : Below k x) : Returns (wholeCoordinate x) := by
  obtain ⟨n, rounded⟩ := below.round_ok
  exact ⟨n, by rw [wholeCoordinate, rounded]; rfl⟩

theorem wholePoint_returns {p : Float × Float} {k : Int} (first : Below k p.1) (second : Below k p.2) :
    Returns (wholePoint p) :=
  (wholeCoordinate_returns first).bind fun _ _ => (wholeCoordinate_returns second).bind fun _ _ => ⟨_, rfl⟩

section Arc
variable {center : Float × Float} {curve : Float}

theorem below_fromCenter {p : Point} (first : Below 197 center.1) (second : Below 197 center.2) (near : p.Near) :
    Below 199 (fromCenter center p).1 ∧ Below 199 (fromCenter center p).2 := by
  have coordinate {n : Int} (small : n.natAbs < 2 ^ 42) : Below 197 (ofInt n) :=
    (below_ofInt small (by decide) (by decide)).mono (by decide)
  exact ⟨(coordinate near.1).sub first (by decide) (by decide), (coordinate near.2).sub second (by decide) (by decide)⟩

theorem below_pushOut {p : Point} {scale : Float} (first : Below 197 center.1) (second : Below 197 center.2)
    (near : p.Near) (isScale : Below 53 scale) :
    Below 255 (pushOut center scale p).1 ∧ Below 255 (pushOut center scale p).2 := by
  obtain ⟨dx, dy⟩ := below_fromCenter first second near
  have along {x d : Float} (isX : Below 197 x) (isD : Below 199 d) : Below 255 (x + d * scale) :=
    (isX.mono (by decide)).add (isD.mul isScale (by decide) (by decide)) (by decide) (by decide)
  exact ⟨along first dx, along second dy⟩

theorem below_arcMiddle {start : Float × Float} (first : Below 197 center.1) (second : Below 197 center.2)
    (isX : Below 255 start.1) (isY : Below 255 start.2) (finite : Below 1024 curve) :
    Below 270 (arcMiddle center start curve).1 ∧ Below 270 (arcMiddle center start curve).2 := by
  have degree : Below (-5) (pi / 180.0) := by decide +kernel
  have two : AtLeast 1 2.0 := by decide +kernel
  have dx : Below 257 (start.1 - center.1) := isX.sub (first.mono (by decide)) (by decide) (by decide)
  have dy : Below 257 (start.2 - center.2) := isY.sub (second.mono (by decide)) (by decide) (by decide)
  have radius := below_hypot dx dy (by decide) (by decide)
  have half : Below 1020 (radians curve / 2.0) :=
    (finite.mul degree (by decide) (by decide)).div two.divisor (by decide) (by decide)
  have angle := ((below_atan2 dy dx).mono (l := 1020) (by decide)).add half (by decide) (by decide)
  have along {x f : Float} (isX : Below 197 x) (isF : Below 5 f) :
      Below 270 (x + hypot (start.1 - center.1) (start.2 - center.2) * f) :=
    (isX.mono (by decide)).add (radius.mul isF (by decide) (by decide)) (by decide) (by decide)
  exact ⟨along first (below_cos angle), along second (below_sin angle)⟩

theorem arcFrom_returns {start : Float × Float} {begun ended : Except Failure Point} {width : Int} {filled : Bool}
    (first : Below 197 center.1) (second : Below 197 center.2) (isX : Below 255 start.1) (isY : Below 255 start.2)
    (finite : Below 1024 curve) (isBegun : Returns begun) (isEnded : Returns ended) :
    Returns (arcFrom center start curve begun ended width filled) := by
  have choice {x y : Except Failure Point} (isX : Returns x) (isY : Returns y) :
      Returns (if curve < 0.0 then x else y) := by
    split
    · exact isX
    · exact isY
  obtain ⟨x, y⟩ := below_arcMiddle first second isX isY finite
  exact (choice isEnded isBegun).bind fun _ _ => (wholePoint_returns x y).bind fun _ _ =>
    (choice isBegun isEnded).bind fun _ _ => ⟨_, rfl⟩

end Arc

/-- The arc of a wire is computed from lengths that are not too large and a curve that is finite and not too small. -/
theorem arcGraphic_returns {w : Eagle.Wire} {curve : Float} (apart : w.start ≠ w.stop) (first : w.start.Near)
    (second : w.stop.Near) (width : w.width.natAbs < 2 ^ 42) (finite : Below 1024 curve) (usable : AtLeast (-80) curve) :
    Returns (arcGraphic w curve) := by
  obtain ⟨rise, isRise, isCenter⟩ := arcCenter_returns apart first second finite usable
  obtain ⟨centerX, centerY⟩ := below_centerOver apart first second isRise
  have aside := center_apart apart first second isRise
  refine Returns.bind ⟨_, isCenter⟩ fun center made => ?_
  obtain rfl := Except.ok.inj (isCenter.symm.trans made)
  obtain ⟨dx, dy⟩ := below_fromCenter centerX centerY first
  have eighth : (2 : ℚ) ^ (-3 : Int) = 1 / 8 := by norm_num
  have leg := aside.imp (fun far => atLeast_of_value (l := -3) dx.isFinite (eighth ▸ far))
    fun far => atLeast_of_value (l := -3) dy.isFinite (eighth ▸ far)
  have two : AtLeast 1 2.0 := by decide +kernel
  have diameter := two.mul (atLeast_hypot dx dy leg (by decide) (by decide)) (by decide)
  have reach : Below 48 (ofInt (w.width * 2)) := below_ofInt (k := 43) (by omega) (by decide) (by decide)
  dsimp only
  split
  · refine Returns.bind ⟨_, divide_ok diameter⟩ fun scale divided => ?_
    obtain rfl := Except.ok.inj ((divide_ok diameter).symm.trans divided)
    have isScale := reach.div diameter.divisor (by decide) (by decide)
    obtain ⟨x, y⟩ := below_pushOut centerX centerY first (isScale.mono (by decide))
    obtain ⟨x', y'⟩ := below_pushOut centerX centerY second (isScale.mono (by decide))
    exact arcFrom_returns centerX centerY x y finite (wholePoint_returns x y) (wholePoint_returns x' y')
  · have coordinate {n : Int} (small : n.natAbs < 2 ^ 42) : Below 255 (ofInt n) :=
      (below_ofInt small (by decide) (by decide)).mono (by decide)
    exact arcFrom_returns centerX centerY (coordinate first.1) (coordinate first.2) finite ⟨_, rfl⟩ ⟨_, rfl⟩

end Redraft
