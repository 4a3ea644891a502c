import Redraft.Proofs.BinaryErrors

/-!
# Lengths in binary numbers

The length of a hypotenuse is the root of an exact sum of squares, found to
sixty-four further binary places and then rounded. Whether it is more than one
is decided by the sum of the squares, unless that is next to one.
-/

namespace Redraft.Number

/-! ## Roots -/

theorem sqrtBits_le (k n : Nat) : sqrtBits k n * sqrtBits k n ≤ n := by
  induction k generalizing n with
  | zero => exact Nat.zero_le _
  | succ k ih =>
    unfold sqrtBits
    dsimp only
    split
    · assumption
    · have := ih (n / 4)
      have double : 2 * sqrtBits k (n / 4) * (2 * sqrtBits k (n / 4)) = 4 * (sqrtBits k (n / 4) * sqrtBits k (n / 4)) := by ring
      omega

theorem sqrtFloor_bounds (n : Nat) : sqrtFloor n * sqrtFloor n ≤ n ∧ n < (sqrtFloor n + 1) * (sqrtFloor n + 1) := by
  refine ⟨sqrtBits_le _ n, ?_⟩
  by_contra more
  have := le_sqrtFloor (not_lt.1 more)
  omega

/-- Twice the root, odd where the root is not whole. -/
def doubledRoot (n : Nat) : Nat := 2 * sqrtFloor n + if sqrtFloor n * sqrtFloor n = n then 0 else 1

/-- The root of a number with so many digits is found to sixty binary places. -/
theorem doubledRoot_near {n : Nat} (wide : n = 0 ∨ 2 ^ 128 ≤ n) :
    |(doubledRoot n : ℚ) ^ 2 - 4 * (n : ℚ)| ≤ 4 * (n : ℚ) / 2 ^ 60 := by
  obtain ⟨low, high⟩ := sqrtFloor_bounds n
  unfold doubledRoot
  by_cases whole : sqrtFloor n * sqrtFloor n = n
  · rw [if_pos whole, Nat.add_zero]
    have square : ((2 * sqrtFloor n : Nat) : ℚ) ^ 2 - 4 * (n : ℚ) = 0 := by
      have whole : (sqrtFloor n : ℚ) * sqrtFloor n = n := by exact_mod_cast whole
      push_cast
      linear_combination 4 * whole
    rw [square, abs_zero]
    positivity
  · rw [if_neg whole]
    have some : n ≠ 0 := by
      rintro rfl
      exact whole (Nat.le_zero.1 low)
    have large : 2 ^ 64 ≤ sqrtFloor n := le_sqrtFloor (by simpa using wide.resolve_left some)
    generalize sqrtFloor n = r at *
    have low : (r * r + 1 : ℚ) ≤ n := by exact_mod_cast (by omega : r * r + 1 ≤ n)
    have high : (n : ℚ) ≤ r * r + 2 * r := by
      have : (r + 1) * (r + 1) = r * r + 2 * r + 1 := by ring
      exact_mod_cast (by omega : n ≤ r * r + 2 * r)
    have large : (2 ^ 64 : ℚ) ≤ r := by exact_mod_cast large
    have error : (4 * r : ℚ) ≤ 4 * (n : ℚ) / 2 ^ 60 := by
      rw [le_div_iff₀ (by positivity)]
      nlinarith
    rw [abs_le]
    push_cast
    constructor <;> nlinarith

theorem sqrtScaled_approximates {n : Nat} {low : Int} (range : (n : ℚ) * 2 ^ (2 * low) < 2 ^ 200) :
    ∃ r : ℚ, 0 ≤ r ∧ Approximates (sqrtScaled n (2 * low)) r ∧
      |r ^ 2 - (n : ℚ) * 2 ^ (2 * low)| ≤ (n : ℚ) * 2 ^ (2 * low) / 2 ^ 60 := by
  obtain ⟨m, isScaled⟩ : ∃ m, n * twoTo 128 = m := ⟨_, rfl⟩
  have wide : m = 0 ∨ 2 ^ 128 ≤ m := by
    rcases Nat.eq_zero_or_pos n with rfl | some
    · exact .inl (by rw [← isScaled, Nat.zero_mul])
    · exact .inr (isScaled ▸ Nat.le_mul_of_pos_left _ some)
  have near := doubledRoot_near wide
  have unit := two_zpow_pos (low - 65)
  -- both squares are in units of the last place that is found
  have square : (n : ℚ) * 2 ^ (2 * low) = 4 * m * (2 ^ (low - 65)) ^ 2 := by
    have scaled : (m : ℚ) = (n : ℚ) * 2 ^ 128 := by
      rw [← isScaled]
      push_cast
      rfl
    have power : ((2 : ℚ) ^ (low - 65)) ^ 2 * 2 ^ (130 : Int) = 2 ^ (2 * low) := by
      rw [← zpow_natCast, ← zpow_mul, ← zpow_add₀ two_ne_zero]
      congr 1
      push_cast
      ring
    rw [scaled, ← power]
    norm_num
    ring
  have error : |((doubledRoot m : ℚ) * 2 ^ (low - 65)) ^ 2 - (n : ℚ) * 2 ^ (2 * low)| ≤ (n : ℚ) * 2 ^ (2 * low) / 2 ^ 60 := by
    rw [square, mul_pow, ← sub_mul, abs_mul, abs_of_nonneg (sq_nonneg (2 ^ (low - 65) : ℚ))]
    calc _ ≤ 4 * (m : ℚ) / 2 ^ 60 * (2 ^ (low - 65)) ^ 2 := mul_le_mul_of_nonneg_right near (sq_nonneg _)
      _ = _ := by ring
  refine ⟨doubledRoot m * 2 ^ (low - 65), by positivity, ?_, error⟩
  have isRatio : ((doubledRoot m * twoTo (low - 65).toNat : Nat) : ℚ) / (twoTo (-(low - 65)).toNat : Nat) =
      doubledRoot m * 2 ^ (low - 65) := by
    rw [two_zpow_eq]
    push_cast
    ring
  have small : ((doubledRoot m * twoTo (low - 65).toNat : Nat) : ℚ) / (twoTo (-(low - 65)).toNat : Nat) < 2 ^ 200 := by
    rw [isRatio]
    by_contra large
    nlinarith [(abs_le.1 error).2]
  have close := ofSignedRatio_approximates false _ (twoTo_pos (-(low - 65)).toNat).ne' small
  rw [isRatio] at close
  have same : sqrtScaled n (2 * low) =
      ofSignedRatio false (doubledRoot m * twoTo (low - 65).toNat) (twoTo (-(low - 65)).toNat) := by
    unfold sqrtScaled doubledRoot
    dsimp only
    rw [isScaled, show 2 * low / 2 - 65 = low - 65 by omega]
  rw [same]
  simpa [signFactor] using close

/-! ## Hypotenuses -/

section
variable {x y : Float}

theorem value_sq (parts_x : parts x = .finite negative m e) (le : low ≤ e) :
    value x ^ 2 = ((m * twoTo (e - low).toNat) * (m * twoTo (e - low).toNat) : Nat) * 2 ^ (2 * low) := by
  have squared : signFactor negative ^ 2 = 1 := by rw [← sq_abs, abs_signFactor, one_pow]
  have double : (2 : ℚ) ^ (2 * low) = (2 ^ low) ^ 2 := by rw [← zpow_natCast, ← zpow_mul, mul_comm]; rfl
  have unit : (2 : ℚ) ^ e = (twoTo (e - low).toNat : Nat) * 2 ^ low := two_zpow_toNat le
  rw [value, parts_x, Parts.value, mul_pow, squared, unit, double]
  push_cast
  ring

/-- The length is that of the exact hypotenuse to within rounding. -/
theorem hypot_approximates (first : (parts x).IsFinite) (second : (parts y).IsFinite)
    (range : value x ^ 2 + value y ^ 2 < 2 ^ 200) : ∃ r : ℚ, 0 ≤ r ∧ Approximates (hypot x y) r ∧
      |r ^ 2 - (value x ^ 2 + value y ^ 2)| ≤ (value x ^ 2 + value y ^ 2) / 2 ^ 60 := by
  cases parts_x : parts x with
  | finite negative m e =>
    cases parts_y : parts y with
    | finite negative' n f =>
      have sum : value x ^ 2 + value y ^ 2 =
          ((m * twoTo (e - min e f).toNat) * (m * twoTo (e - min e f).toNat) +
            (n * twoTo (f - min e f).toNat) * (n * twoTo (f - min e f).toNat) : Nat) * 2 ^ (2 * min e f) := by
        rw [value_sq parts_x (min_le_left e f), value_sq parts_y (min_le_right e f), ← add_mul]
        push_cast
        rfl
      rw [sum] at range ⊢
      have isScaled := sqrtScaled_approximates range
      unfold hypot
      rw [parts_x, parts_y]
      exact isScaled
    | _ => simp [parts_y, Parts.IsFinite] at second
  | _ => simp [parts_x, Parts.IsFinite] at first

/-- The root of a number with so many digits has half as many. -/
theorem below_sqrtScaled {n j : Nat} {low : Int} (wide : n < 2 ^ j * 2 ^ j) (least : -900 ≤ j + low)
    (range : j + low ≤ 900) : Below (j + low + 4) (sqrtScaled n (2 * low)) := by
  have root : sqrtFloor (n * twoTo 128) < 2 ^ (j + 64) := by
    by_contra long
    have square := Nat.mul_le_mul (not_lt.1 long) (not_lt.1 long)
    have small : n * twoTo 128 < 2 ^ (j + 64) * 2 ^ (j + 64) := calc
      n * twoTo 128 < 2 ^ j * 2 ^ j * twoTo 128 := Nat.mul_lt_mul_of_pos_right wide (twoTo_pos 128)
      _ = 2 ^ (j + 64) * 2 ^ (j + 64) := by
        change 2 ^ j * 2 ^ j * 2 ^ 128 = _
        ring
    have := (sqrtFloor_bounds (n * twoTo 128)).1
    omega
  have digits (sticky : Nat) (bit : sticky ≤ 1) : (2 * sqrtFloor (n * twoTo 128) + sticky).log2 < j + 65 := by
    refine log2_lt_of_lt (by omega) ?_
    have double : 2 ^ (j + 65) = 2 * 2 ^ (j + 64) := by rw [← Nat.pow_succ']
    omega
  unfold sqrtScaled
  dsimp only
  have lead := digits (if sqrtFloor (n * twoTo 128) * sqrtFloor (n * twoTo 128) = n * twoTo 128 then 0 else 1)
    (by split <;> decide)
  generalize (2 * sqrtFloor (n * twoTo 128) + _ : Nat) = root at *
  rw [show 2 * low / 2 - 65 = low - 65 by omega]
  refine (below_ofSignedRatio (k := j + low - 1) false (Nat.ne_of_gt (twoTo_pos _)) ?_ (by omega) (by omega)).mono
    (by omega)
  rw [show (twoTo (-(low - 65)).toNat).log2 = _ from Nat.log2_two_pow]
  by_cases none : root = 0
  · rw [none, Nat.zero_mul, Nat.log2_zero]
    omega
  · rw [log2_mul_twoTo none]
    omega

/-- A hypotenuse is less than a power of two that the legs are well below. -/
theorem below_hypot {k : Int} (first : Below k x) (second : Below k y) (least : -800 ≤ k) (range : k ≤ 800) :
    Below (k + 5) (hypot x y) := by
  unfold Below at first second
  unfold hypot
  cases formed : parts x with
  | finite negative m e =>
    cases formed' : parts y with
    | finite negative' n f =>
      rw [formed] at first
      rw [formed'] at second
      dsimp only
      have short : m * twoTo (e - min e f).toNat < 2 ^ (k - min e f).toNat := lowered_lt first.1 first.2 (min_le_left e f)
      have short' : n * twoTo (f - min e f).toNat < 2 ^ (k - min e f).toNat :=
        lowered_lt second.1 second.2 (min_le_right e f)
      have isLow : min e f + 53 ≤ k := (Int.add_le_add_right (min_le_left e f) _).trans first.2
      generalize m * twoTo (e - min e f).toNat = a at *
      generalize n * twoTo (f - min e f).toNat = b at *
      generalize min e f = low at *
      have sum : a * a + b * b < 2 ^ ((k - low).toNat + 1) * 2 ^ ((k - low).toNat + 1) := by
        rw [Nat.pow_succ]
        nlinarith
      exact (below_sqrtScaled sum (by omega) (by omega)).mono (by omega)
    | _ => simp [formed', Parts.Below] at second
  | _ => simp [formed, Parts.Below] at first

theorem hypot_le_one (first : (parts x).IsFinite) (second : (parts y).IsFinite)
    (short : value x ^ 2 + value y ^ 2 ≤ 1 - 1 / 2 ^ 40) : hypot x y ≤ 1.0 := by
  obtain ⟨r, nonneg, ⟨finite, close⟩, near⟩ := hypot_approximates first second (short.trans_lt (by norm_num))
  rw [le_iff finite value_one.1, value_one.2]
  have sum : value x ^ 2 + value y ^ 2 ≤ 1 := short.trans (by norm_num)
  have root : r ≤ 1 - 1 / 2 ^ 42 := by
    by_contra longer
    have square : (1 - 1 / 2 ^ 42 : ℚ) ^ 2 < r ^ 2 := by
      apply pow_lt_pow_left₀ (not_le.1 longer) (by norm_num) two_ne_zero
    have high := (abs_le.1 near).2
    linarith
  have high := (abs_le.1 close).2
  rw [abs_of_nonneg nonneg] at high
  linarith

theorem one_lt_hypot (first : (parts x).IsFinite) (second : (parts y).IsFinite)
    (range : value x ^ 2 + value y ^ 2 < 2 ^ 200) (long : 1 + 1 / 2 ^ 40 ≤ value x ^ 2 + value y ^ 2) :
    ¬hypot x y ≤ 1.0 := by
  obtain ⟨r, nonneg, ⟨finite, close⟩, near⟩ := hypot_approximates first second range
  rw [le_iff finite value_one.1, value_one.2, not_le]
  have root : 1 + 1 / 2 ^ 43 ≤ r := by
    by_contra shorter
    have square : r ^ 2 < (1 + 1 / 2 ^ 43 : ℚ) ^ 2 := by
      apply pow_lt_pow_left₀ (not_le.1 shorter) nonneg two_ne_zero
    have low := (abs_le.1 near).1
    linarith
  have low := (abs_le.1 close).1
  rw [abs_of_nonneg nonneg] at low
  linarith

end

end Redraft.Number
