import Redraft.Proofs.BinaryNumbers

/-!
# Sizes of products and quotients

A product or quotient of binary numbers is no less than a power of two that the
exact one is no less than, unless that is too small for a significand of
fifty-three digits.
-/

namespace Redraft.Number
open Float.Model UnpackedFloat

/-! ## Packing -/

theorem packedParts_overflow {s : Sign} {m : Nat} {e : Int} (pos : 0 < m) (above : 971 < e) :
    packedParts (.finite s m e pos) = .infinite (isNegative s) := by
  have exceeds : 2 ^ Format.binary64.exponentBits ≤
      (e + Format.binary64.exponentBias + Format.binary64.mantissaBitsWithoutImplicit).toNat + 1 := by
    change 2048 ≤ (e + 1023 + 52).toNat + 1
    omega
  unfold packedParts UnpackedFloat.pack
  simp only [if_pos exceeds]
  exact packedParts_infinity s

/-- The number will be infinite when it is packed, or no less than a power of two. -/
def Large (l : Int) : UnpackedFloat → Prop
  | .finite _ m e _ => (m < 2 ^ 53 ∧ (2 ^ 52 ≤ m ∨ e = -1074)) ∧ -1074 ≤ e ∧ l ≤ m.log2 + e
  | .infinity _ => True
  | _ => False

theorem Large.packedParts {f : UnpackedFloat} {l : Int} (large : Large l f) : (packedParts f).AtLeast l := by
  match f, large with
  | .infinity s, _ =>
    rw [packedParts_infinity]
    trivial
  | .finite s m e pos, ⟨⟨wide, form⟩, least, lead⟩ =>
    rcases Int.lt_or_le 971 e with above | range
    · rw [packedParts_overflow pos above]
      trivial
    · rw [packedParts_canonical pos wide least range form]
      exact ⟨Nat.ne_of_gt pos, lead⟩

theorem AtLeast.large {x : Float} {l : Int} (atLeast : AtLeast l x) : Large l x.toModel.unpack := by
  have lead := atLeast.divisor
  cases form : x.toModel.unpack with
  | finite s m e pos =>
    rw [form] at lead
    obtain ⟨wide, least, _, digits⟩ := unpack_finite form
    exact ⟨⟨wide, digits⟩, least, lead⟩
  | infinity s => trivial
  | zero s =>
    rw [form] at lead
    exact lead.elim
  | notANumber =>
    rw [form] at lead
    exact lead.elim

/-! ## Rounding -/

theorem log2_div_two_pow {m n : Nat} (some : m ≠ 0) (le : n ≤ m.log2) :
    m / 2 ^ n ≠ 0 ∧ (m / 2 ^ n).log2 = m.log2 - n := by
  have low : 2 ^ (m.log2 - n) ≤ m / 2 ^ n := by
    rw [Nat.le_div_iff_mul_le (Nat.two_pow_pos n), ← Nat.pow_add, Nat.sub_add_cancel le]
    exact Nat.log2_self_le some
  have high : m / 2 ^ n < 2 ^ (m.log2 - n + 1) := by
    refine Nat.div_lt_of_lt_mul ?_
    rw [← Nat.pow_add, show n + (m.log2 - n + 1) = m.log2 + 1 by omega]
    exact Nat.lt_log2_self
  have some' : m / 2 ^ n ≠ 0 := Nat.ne_of_gt (Nat.lt_of_lt_of_le (Nat.two_pow_pos _) low)
  exact ⟨some', (Nat.log2_eq_iff some').2 ⟨low, high⟩⟩

/-- Digits that are cut off do not move the leading one. -/
theorem shift_lead {m : Nat} {e e' : Int} {a : Accuracy} {x : ExtendedMantissa} (some : m ≠ 0)
    (least : -1022 ≤ m.log2 + e) (shifted : shiftToTargetExponent .binary64 m e a = (x, e')) :
    x.mantissa ≠ 0 ∧ (x.mantissa.log2 : Int) + e' = m.log2 + e := by
  obtain ⟨cut, exponent⟩ := shiftToTargetExponent_eq shifted
  obtain ⟨some', lead⟩ := log2_div_two_pow (n := (e' - e).toNat) some (by omega)
  rw [cut]
  exact ⟨some', by omega⟩

/-- Rounding keeps the place of the leading digit, or moves it up. -/
theorem roundWithAccuracy_large {s : Sign} {m : Nat} {e l : Int} {a : Accuracy} (some : m ≠ 0)
    (digits : 52 ≤ m.log2 ∨ e ≤ -1074) (lead : l ≤ m.log2 + e) (least : -1022 ≤ m.log2 + e) :
    Large l (roundWithAccuracy .binary64 s m e a) := by
  unfold roundWithAccuracy
  rcases first : shiftToTargetExponent .binary64 m e a with ⟨x, e'⟩
  obtain ⟨some', lead'⟩ := shift_lead some least first
  have exponent := (shiftToTargetExponent_eq first).2
  have up : x.mantissa ≤ x.roundedMantissa := by
    unfold ExtendedMantissa.roundedMantissa Accuracy.roundToNearestEven
    split <;> omega
  have longer := log2_le_of_le up
  rcases second : shiftToTargetExponent .binary64 x.roundedMantissa e' .exact with ⟨y, e''⟩
  obtain ⟨some'', lead''⟩ := shift_lead (by omega) (by omega) second
  have exponent' := (shiftToTargetExponent_eq second).2
  dsimp only
  rw [second]
  dsimp only
  rw [dif_neg some'']
  refine ⟨⟨?_, ?_⟩, by omega, by omega⟩
  · exact (Nat.log2_lt some'').1 (by omega)
  · by_cases bottom : e'' = -1074
    · exact .inr bottom
    · exact .inl ((Nat.le_log2 some'').1 (by omega))

/-! ## Operations -/

section
variable {f g : UnpackedFloat} {k l : Int}

theorem log2_mul_ge {m m' : Nat} (some : m ≠ 0) (some' : m' ≠ 0) : m.log2 + m'.log2 ≤ (m * m').log2 := by
  rw [Nat.le_log2 (Nat.mul_ne_zero some some'), Nat.pow_add]
  exact Nat.mul_le_mul (Nat.log2_self_le some) (Nat.log2_self_le some')

theorem mul_large (first : Large k f) (second : Large l g) (least : -1022 ≤ k + l) :
    Large (k + l) (UnpackedFloat.mul .binary64 f g) := by
  match f, g, first, second with
  | .infinity s, .infinity t, _, _ => trivial
  | .infinity s, .finite t m e pos, _, _ => trivial
  | .finite s m e pos, .infinity t, _, _ => trivial
  | .finite s m e pos, .finite t m' e' pos', ⟨⟨_, form⟩, _, lead⟩, ⟨⟨_, form'⟩, _, lead'⟩ =>
    have some := Nat.ne_of_gt pos
    have some' := Nat.ne_of_gt pos'
    have product := log2_mul_ge some some'
    refine roundWithAccuracy_large (Nat.mul_ne_zero some some') ?_ (by omega) (by omega)
    rcases form with full | bottom
    · have := (Nat.le_log2 some).2 full
      omega
    · rcases form' with full' | bottom'
      · have := (Nat.le_log2 some').2 full'
        omega
      · exact .inr (by omega)

/-- A quotient is no less than one of powers of two. -/
theorem log2_div_ge {m n : Nat} (some : m ≠ 0) (pos : 0 < n) (le : n.log2 + 1 ≤ m.log2) :
    m.log2 - (n.log2 + 1) ≤ (m / n).log2 := by
  have low : 2 ^ (m.log2 - (n.log2 + 1)) ≤ m / n := by
    rw [Nat.le_div_iff_mul_le pos]
    calc 2 ^ (m.log2 - (n.log2 + 1)) * n ≤ 2 ^ (m.log2 - (n.log2 + 1)) * 2 ^ (n.log2 + 1) :=
          Nat.mul_le_mul_left _ (Nat.le_of_lt Nat.lt_log2_self)
      _ = 2 ^ m.log2 := by rw [← Nat.pow_add, Nat.sub_add_cancel le]
      _ ≤ m := Nat.log2_self_le some
  exact (Nat.le_log2 (Nat.ne_of_gt (Nat.lt_of_lt_of_le (Nat.two_pow_pos _) low))).2 low

theorem div_large (first : Large k f) (second : Operand l g) (least : -1022 ≤ k - l) :
    Large (k - l) (UnpackedFloat.div .binary64 f g) := by
  match f, g, first, second with
  | .infinity s, .finite t m e pos, _, _ => trivial
  | .infinity s, .zero t, _, _ => trivial
  | .finite s m e pos, .zero t, _, _ => trivial
  | .finite s m e pos, .finite t m' e' pos', ⟨_, _, lead⟩, ⟨wide, unit⟩ =>
    have digits := log2_lt_of_lt (by decide) wide
    have some := Nat.ne_of_gt pos
    -- the dividend is given so many digits that the quotient has fifty-three
    have quotient (n : Nat) (enough : m'.log2 + 53 ≤ m.log2 + n) :
        52 ≤ ((m <<< n) / m').log2 ∧ m.log2 + n ≤ ((m <<< n) / m').log2 + (m'.log2 + 1) := by
      have shifted := log2_shiftLeft some n
      have some' : m <<< n ≠ 0 := by
        rw [Nat.shiftLeft_eq]
        exact Nat.mul_ne_zero some (Nat.ne_of_gt (Nat.two_pow_pos n))
      have := log2_div_ge some' pos' (by omega)
      omega
    obtain ⟨d, target, isMax⟩ : ∃ d, Format.binary64.targetExponent (totalExponent m e - totalExponent m' e') = d ∧
        d = max (m.log2 + 1 + e - (m'.log2 + 1 + e') - 53) (-1074) := ⟨_, rfl, rfl⟩
    obtain ⟨long, high⟩ := quotient (e - e' - min (e - e') d).toNat (by omega)
    unfold UnpackedFloat.div divCore
    dsimp only
    rw [target]
    refine roundWithAccuracy_large ?_ (.inl long) (by omega) (by omega)
    intro none
    rw [none, Nat.log2_zero] at long
    exact absurd long (by decide)

end

namespace AtLeast
variable {x y : Float} {k l : Int}

theorem of_large {f : UnpackedFloat} (large : Large l f) : AtLeast l (.ofModel (.pack f)) := by
  rw [AtLeast, parts_ofModel]
  exact large.packedParts

theorem mul (first : AtLeast k x) (second : AtLeast l y) (least : -1022 ≤ k + l) : AtLeast (k + l) (x * y) :=
  of_large (mul_large first.large second.large least)

theorem div (first : AtLeast k x) (second : Below l y) (least : -1022 ≤ k - l) : AtLeast (k - l) (x / y) :=
  of_large (div_large first.large second.operand least)

/-- What is no less than a power of two is not zero. -/
theorem ne_zero (atLeast : AtLeast l x) : (x == 0.0) = false := by
  have large := atLeast.large
  have models : (x == 0.0) = (x.toModel.unpack.compare (.zero .positive) == some .eq) := rfl
  rw [models]
  match x.toModel.unpack, large with
  | .infinity .positive, _ => rfl
  | .infinity .negative, _ => rfl
  | .finite .positive m e pos, _ => rfl
  | .finite .negative m e pos, _ => rfl

end AtLeast

end Redraft.Number
