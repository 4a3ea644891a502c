import Redraft.Number.Angle
import Redraft.Proofs.BinaryNumbers

/-!
# Sizes of angles

A finite angle has a sine and a cosine of no more than about one, and a tangent
that is neither too large nor, if the angle is not too small, too small to
divide by. A finite vector has an angle of no more than half a circle.
-/

namespace Redraft.Number

/-! ## Sine, cosine and tangent -/

/-- The significand of a finite number has fifty-three digits, unless the exponent is the least one. -/
theorem parts_finite {x : Float} {negative : Bool} {m : Nat} {e : Int} (form : parts x = .finite negative m e) :
    m < twoTo 53 ∧ (twoTo 52 ≤ m ∨ e = -1074) := by
  have full : twoTo 53 = 2 * twoTo 52 := rfl
  have fraction := Nat.mod_lt x.toBits.toNat (twoTo_pos 52)
  unfold parts at form
  dsimp only at form
  split at form
  · split at form <;> cases form
  · split at form <;> obtain ⟨-, rfl, rfl⟩ := Parts.finite.inj form
    · exact ⟨by omega, .inr rfl⟩
    · exact ⟨by omega, .inl (by omega)⟩

theorem log2_leg (n : Int) : 128 ≤ (leg n).log2 ∧ (leg n).log2 ≤ 192 := by
  have one : fixedOne = 2 ^ 192 := rfl
  have least : twoTo (fixedPlaces - 64) = 2 ^ 128 := rfl
  have above : twoTo (fixedPlaces - 64) ≤ leg n := Nat.le_max_right ..
  have below : leg n ≤ fixedOne := Nat.max_le.2 ⟨Nat.min_le_right .., by decide⟩
  rw [least] at above
  rw [one] at below
  exact ⟨(Nat.le_log2 (by omega)).2 above, Nat.le_trans (log2_le_of_le below) (Nat.le_of_eq Nat.log2_two_pow)⟩

theorem leg_ne_zero (n : Int) : leg n ≠ 0 := by
  have lead := (log2_leg n).1
  intro none
  rw [none, Nat.log2_zero] at lead
  omega

section
variable {x : Float} {k : Int} {negative : Bool} {m : Nat} {e : Int}

/-- A slight angle is below one. -/
theorem below_of_isSlight (form : parts x = .finite negative m e) (slight : isSlight m e = true) : Below 0 x := by
  obtain ⟨wide, digits⟩ := parts_finite form
  rw [Below, form]
  refine ⟨wide, ?_⟩
  rcases digits with full | rfl
  · have some : m ≠ 0 := Nat.ne_of_gt (Nat.lt_of_lt_of_le (twoTo_pos 52) full)
    have lead : 52 ≤ m.log2 := (Nat.le_log2 some).2 full
    unfold isSlight at slight
    simp only [some, decide_false, Bool.false_or, decide_eq_true_eq] at slight
    omega
  · decide

theorem below_leg (negative : Bool) (n : Int) : Below 5 (ofSignedRatio negative (leg n) fixedOne) := by
  have lead := (log2_leg n).2
  have one : Nat.log2 fixedOne = 192 := Nat.log2_two_pow
  exact below_ofSignedRatio (k := 0) negative (Nat.ne_of_gt (twoTo_pos _)) (by omega) (by decide) (by decide)

theorem below_cos (below : Below k x) : Below 5 (cos x) := by
  unfold Below at below
  unfold cos
  cases form : parts x with
  | finite negative m e =>
    dsimp only
    split
    · decide +kernel
    · exact below_leg _ _
  | _ => simp [form, Parts.Below] at below

theorem below_sin (below : Below k x) : Below 5 (sin x) := by
  unfold Below at below
  unfold sin
  cases form : parts x with
  | finite negative m e =>
    dsimp only
    split
    · rename_i slight
      exact (below_of_isSlight form slight).mono (by decide)
    · exact below_leg _ _
  | _ => simp [form, Parts.Below] at below

/-- The tangent of an angle that is not too small is large enough to divide by. -/
theorem tan_bounds {l : Int} (below : Below k x) (atLeast : AtLeast l x) (least : l ≤ -66) :
    Below 69 (tan x) ∧ AtLeast l (tan x) := by
  unfold Below at below
  unfold tan
  cases form : parts x with
  | finite negative m e =>
    dsimp only
    split
    · rename_i slight
      exact ⟨(below_of_isSlight form slight).mono (by decide), atLeast⟩
    · have sine := log2_leg (circular m e).2
      have cosine := log2_leg (circular m e).1
      refine ⟨below_ofSignedRatio (k := 64) _ (leg_ne_zero _) (by omega) (by decide) (by decide), ?_⟩
      have quotient := atLeast_ofSignedRatio (l := -64)
        (negative != (decide ((circular m e).2 < 0) != decide ((circular m e).1 < 0))) (leg_ne_zero (circular m e).2)
        (leg_ne_zero (circular m e).1) (by omega) (by decide) (by decide)
      exact quotient.mono least
  | _ => simp [form, Parts.Below] at below

end

/-! ## Vectors -/

section
variable {x y : Float} {k : Int}

theorem below_ofAngle (negative : Bool) (angle : Int) : Below 7 (ofAngle negative angle) := by
  have one : Nat.log2 fixedOne = 192 := Nat.log2_two_pow
  have four : Nat.log2 (4 * fixedOne) = 194 := Nat.log2_two_pow (n := 194)
  have lead := log2_le_of_le (Nat.min_le_right angle.natAbs (4 * fixedOne))
  exact below_ofSignedRatio (k := 2) negative (Nat.ne_of_gt (twoTo_pos _)) (by omega) (by decide) (by decide)

theorem below_atan2 (first : Below k y) (second : Below k x) : Below 7 (atan2 y x) := by
  unfold Below at first second
  unfold atan2
  cases formed : parts y with
  | finite down m e =>
    cases formed' : parts x with
    | finite back n f =>
      dsimp only
      split
      · rename_i low
        simp only [Bool.and_eq_true, decide_eq_true_eq] at low
        have less := Nat.lt_of_le_of_lt (Nat.le_mul_of_pos_right _ (twoTo_pos 28)) low.2
        have lead := log2_le_of_le (Nat.le_of_lt less)
        exact (below_ofSignedRatio (k := 0) down (Nat.ne_of_gt (Nat.zero_lt_of_lt less)) (by omega) (by decide)
          (by decide)).mono (by decide)
      · exact below_ofAngle _ _
    | _ => simp [formed', Parts.Below] at second
  | _ => simp [formed, Parts.Below] at first

end

end Redraft.Number
