import Mathlib.Algebra.Ring.Int.Defs
import Mathlib.Algebra.Ring.Nat
import Redraft.Geometry.Segment

/-!
# Binary numbers in parts

The operations on binary numbers are given by what they do to signs,
significands and exponents. Here their results are read as `parts` again.
-/

namespace Redraft.Number
open Float.Model UnpackedFloat

/-! ## Fields of bits -/

/-- The sign bit of a binary number. -/
def signBit (b : BitVec 64) : BitVec 1 := @unpackSign .binary64 b

/-- The exponent bits of a binary number. -/
def exponentBits (b : BitVec 64) : BitVec 11 := @unpackExponent .binary64 b

/-- The fraction bits of a binary number. -/
def fractionBits (b : BitVec 64) : BitVec 52 := @unpackMantissa .binary64 b

theorem toNat_fractionBits (b : BitVec 64) : (fractionBits b).toNat = b.toNat % twoTo 52 := by
  simp [fractionBits, unpackMantissa, twoTo]

theorem toNat_exponentBits (b : BitVec 64) : (exponentBits b).toNat = b.toNat / twoTo 52 % twoTo 11 := by
  simp [exponentBits, unpackExponent, twoTo, Nat.shiftRight_eq_div_pow]

theorem toNat_signBit (b : BitVec 64) : (signBit b).toNat = b.toNat / twoTo 63 := by
  have small := b.isLt
  have sign : b.toNat / twoTo 63 < 2 := Nat.div_lt_of_lt_mul small
  change b.toNat >>> 63 % 2 = b.toNat / twoTo 63
  rw [Nat.shiftRight_eq_div_pow]
  exact Nat.mod_eq_of_lt sign

/-- The sign is the negative one. -/
def isNegative : Sign → Bool
  | .negative => true
  | .positive => false

theorem isNegative_ofBitVec (v : BitVec 1) : isNegative (Sign.ofBitVec v) = decide (1 ≤ v.toNat) := by
  revert v
  decide

theorem toNat_toBitVec (s : Sign) : decide (1 ≤ s.toBitVec.toNat) = isNegative s := by
  cases s <;> rfl

theorem toNat_implicit (m : BitVec 52) : (1#1 ++ m).toNat = twoTo 52 + m.toNat := by
  rw [BitVec.toNat_append, ← Nat.shiftLeft_add_eq_or_of_lt m.isLt, Nat.shiftLeft_eq]
  rfl

namespace Parts

/-- The parts that three fields of bits stand for. -/
def ofFields (s : BitVec 1) (e : BitVec 11) (m : BitVec 52) : Parts :=
  if e.toNat = 2047 then
    if m.toNat = 0 then .infinite (1 ≤ s.toNat) else .undefined
  else if e.toNat = 0 then .finite (1 ≤ s.toNat) m.toNat (-1074)
  else .finite (1 ≤ s.toNat) (twoTo 52 + m.toNat) ((e.toNat : Int) - 1075)

/-- The parts of a binary number in the form that operations work on. -/
def ofUnpacked : UnpackedFloat → Parts
  | .finite s m e _ => .finite (isNegative s) m e
  | .zero s => .finite (isNegative s) 0 (-1074)
  | .infinity s => .infinite (isNegative s)
  | .notANumber => .undefined

theorem ofUnpacked_unpack (b : BitVec 64) : ofUnpacked (UnpackedFloat.unpack .binary64 b) =
    ofFields (signBit b) (exponentBits b) (fractionBits b) := by
  have full (e : BitVec 11) : e = -1#11 ↔ e.toNat = 2047 := by rw [← BitVec.toNat_inj]; rfl
  have least (e : BitVec 11) : e = 0#11 ↔ e.toNat = 0 := by rw [← BitVec.toNat_inj]; rfl
  have none (m : BitVec 52) : m = 0#52 ↔ m.toNat = 0 := by rw [← BitVec.toNat_inj]; rfl
  unfold ofFields UnpackedFloat.unpack
  change ofUnpacked (if exponentBits b = -1#11 then
      if fractionBits b = 0#52 then .infinity (Sign.ofBitVec (signBit b)) else .notANumber
    else if exponentBits b = 0#11 then
      if h : fractionBits b = 0#52 then .zero (Sign.ofBitVec (signBit b))
      else .finite (Sign.ofBitVec (signBit b)) (fractionBits b).toNat _ _
    else .finite (Sign.ofBitVec (signBit b)) (1#1 ++ fractionBits b).toNat _ _) = _
  by_cases isFull : (exponentBits b).toNat = 2047
  · rw [if_pos ((full _).2 isFull), if_pos isFull]
    by_cases isNone : (fractionBits b).toNat = 0
    · rw [if_pos ((none _).2 isNone), if_pos isNone]
      exact congrArg Parts.infinite (isNegative_ofBitVec _)
    · rw [if_neg (mt (none _).1 isNone), if_neg isNone]
      rfl
  rw [if_neg (mt (full _).1 isFull), if_neg isFull]
  by_cases isLeast : (exponentBits b).toNat = 0
  · rw [if_pos ((least _).2 isLeast), if_pos isLeast]
    by_cases isNone : fractionBits b = 0#52
    · rw [dif_pos isNone, isNone]
      exact congrArg (Parts.finite · 0 (-1074)) (isNegative_ofBitVec _)
    · rw [dif_neg isNone]
      have exponent : ((exponentBits b).toNat : Int) - (1023 + 52) + 1 = -1074 := by omega
      exact congrArg₂ (Parts.finite · _ ·) (isNegative_ofBitVec _) exponent
  · rw [if_neg (mt (least _).1 isLeast), if_neg isLeast]
    change Parts.finite _ (1#1 ++ fractionBits b).toNat _ = _
    rw [toNat_implicit, isNegative_ofBitVec]
    rfl

end Parts

theorem parts_ofFields (x : Float) : parts x =
    .ofFields (signBit x.toBits.toBitVec) (exponentBits x.toBits.toBitVec) (fractionBits x.toBits.toBitVec) := by
  have same : x.toBits.toBitVec.toNat = x.toBits.toNat := rfl
  have sign : 1 ≤ x.toBits.toNat / twoTo 63 ↔ twoTo 63 ≤ x.toBits.toNat := by
    rw [Nat.le_div_iff_mul_le (twoTo_pos 63), Nat.one_mul]
  unfold parts Parts.ofFields
  simp only [toNat_exponentBits, toNat_fractionBits, toNat_signBit, same, sign]

theorem parts_eq (x : Float) : parts x = .ofUnpacked x.toModel.unpack :=
  (parts_ofFields x).trans (Parts.ofUnpacked_unpack _).symm

/-! ## What operations pack -/

/-- The parts of what is packed. -/
def packedParts (f : UnpackedFloat) : Parts := .ofUnpacked (UnpackedFloat.unpack .binary64 (UnpackedFloat.pack .binary64 f))

theorem parts_ofModel (f : UnpackedFloat) : parts (.ofModel (.pack f)) = packedParts f := parts_eq _

theorem signBit_packComponents (s : Sign) (e : BitVec 11) (m : BitVec 52) :
    signBit (packComponents .binary64 s e m) = s.toBitVec := by
  have appended : packComponents .binary64 s e m = (s.toBitVec ++ e ++ m : BitVec (1 + 11 + 52)) := rfl
  have small := e.isLt
  have small' := m.isLt
  have toNat : (s.toBitVec ++ e ++ m : BitVec (1 + 11 + 52)).toNat =
      (s.toBitVec.toNat * 2 ^ 11 + e.toNat) * 2 ^ 52 + m.toNat := by
    rw [BitVec.toNat_append, BitVec.toNat_append, ← Nat.shiftLeft_add_eq_or_of_lt small,
      ← Nat.shiftLeft_add_eq_or_of_lt small', Nat.shiftLeft_eq, Nat.shiftLeft_eq]
  apply BitVec.eq_of_toNat_eq
  rw [toNat_signBit, appended]
  have again : twoTo 63 = 2 ^ 63 := rfl
  rw [again, toNat]
  omega

theorem packed_components (s : Sign) (e : BitVec 11) (m : BitVec 52) :
    .ofUnpacked (UnpackedFloat.unpack .binary64 (packComponents .binary64 s e m)) =
      Parts.ofFields s.toBitVec e m := by
  have exponent : exponentBits (packComponents .binary64 s e m) = e := unpackExponent_packComponents
  have fraction : fractionBits (packComponents .binary64 s e m) = m := unpackMantissa_packComponents
  rw [Parts.ofUnpacked_unpack, exponent, fraction, signBit_packComponents]

theorem packedParts_notANumber : packedParts .notANumber = .undefined := by
  exact packed_components ..

theorem packedParts_zero (s : Sign) : packedParts (.zero s) = .finite (isNegative s) 0 (-1074) := by
  refine (packed_components ..).trans ?_
  cases s <;> rfl

theorem packedParts_infinity (s : Sign) : packedParts (.infinity s) = .infinite (isNegative s) := by
  refine (packed_components ..).trans ?_
  cases s <;> rfl

/-- A packed finite number has an exponent no greater than before, unless it is the least one. -/
theorem packedParts_finite {s : Sign} {m : Nat} {e : Int} (pos : 0 < m) (range : e ≤ 971) :
    ∃ m' e', packedParts (.finite s m e pos) = .finite (isNegative s) m' e' ∧ m' < twoTo 53 ∧
      (e' = e ∨ e' = -1074) := by
  have fits : ¬2 ^ Format.binary64.exponentBits ≤
      (e + Format.binary64.exponentBias + Format.binary64.mantissaBitsWithoutImplicit).toNat + 1 := by
    change ¬2048 ≤ (e + 1023 + 52).toNat + 1
    omega
  -- in both forms the bits left out are carried by no exponent
  have shape (e' : Nat) (small : e' < 2047) (f : BitVec 52) (same : e' = 0 ∨ (e' : Int) - 1075 = e) :
      ∃ m' e'', Parts.ofFields s.toBitVec (BitVec.ofNat 11 e') f = .finite (isNegative s) m' e'' ∧ m' < twoTo 53 ∧
        (e'' = e ∨ e'' = -1074) := by
    have kept : (BitVec.ofNat 11 e').toNat = e' := by
      rw [BitVec.toNat_ofNat]
      omega
    have least := f.isLt
    have wide : twoTo 53 = twoTo 52 + 2 ^ 52 := rfl
    rw [Parts.ofFields, kept, if_neg (by omega), toNat_toBitVec]
    split
    · exact ⟨_, _, rfl, by omega, .inr rfl⟩
    · exact ⟨_, _, rfl, by omega, .inl (by omega)⟩
  unfold packedParts UnpackedFloat.pack
  simp only [if_neg fits]
  split
  · rw [packed_components]
    exact shape (e + 1023 + 52).toNat (by omega) _ (by omega)
  · rw [packed_components]
    exact shape 0 (by omega) _ (.inl rfl)

theorem log2_lt_of_lt {m n : Nat} (pos : 0 < n) (small : m < 2 ^ n) : m.log2 < n := by
  by_cases none : m = 0
  · rw [none]
    exact pos
  · exact (Nat.log2_lt none).2 small

/-- A finite number in the form that is unpacked is packed as it is. -/
theorem packedParts_canonical {s : Sign} {m : Nat} {e : Int} (pos : 0 < m) (wide : m < twoTo 53)
    (least : -1074 ≤ e) (range : e ≤ 971) (form : twoTo 52 ≤ m ∨ e = -1074) :
    packedParts (.finite s m e pos) = .finite (isNegative s) m e := by
  have fits : ¬2 ^ Format.binary64.exponentBits ≤
      (e + Format.binary64.exponentBias + Format.binary64.mantissaBitsWithoutImplicit).toNat + 1 := by
    change ¬2048 ≤ (e + 1023 + 52).toNat + 1
    omega
  have half : twoTo 53 = 2 * 2 ^ 52 := rfl
  have same : twoTo 52 = 2 ^ 52 := rfl
  unfold packedParts UnpackedFloat.pack
  simp only [if_neg fits]
  split
  · rename_i full
    have full : m.log2 = 52 := Nat.succ.inj full
    have lead := Nat.log2_self_le (Nat.ne_of_gt pos)
    rw [full] at lead
    rw [packed_components]
    change Parts.ofFields s.toBitVec (BitVec.ofNat 11 (e + 1023 + 52).toNat) (BitVec.ofNat 52 m) = _
    have exponent : (BitVec.ofNat 11 (e + 1023 + 52).toNat).toNat = (e + 1075).toNat := by
      rw [BitVec.toNat_ofNat]
      omega
    have fraction : (BitVec.ofNat 52 m).toNat = m - twoTo 52 := by
      rw [BitVec.toNat_ofNat]
      omega
    rw [Parts.ofFields, exponent, fraction, if_neg (by omega), if_neg (by omega), toNat_toBitVec,
      Nat.add_sub_cancel' (by omega), show ((e + 1075).toNat : Int) - 1075 = e by omega]
  · rename_i short
    have short : ¬m.log2 + 1 = 53 := short
    have below : m < 2 ^ 52 := by
      have := log2_lt_of_lt (by decide) wide
      exact (Nat.log2_lt (Nat.ne_of_gt pos)).1 (by omega)
    rw [packed_components]
    change Parts.ofFields s.toBitVec 0#11 (BitVec.ofNat 52 m) = _
    have fraction : (BitVec.ofNat 52 m).toNat = m := by
      rw [BitVec.toNat_ofNat]
      omega
    rw [Parts.ofFields, fraction, toNat_toBitVec]
    simp
    omega

theorem unpack_finite {b : BitVec 64} {s : Sign} {m : Nat} {e : Int} {pos : 0 < m}
    (form : UnpackedFloat.unpack .binary64 b = .finite s m e pos) :
    m < twoTo 53 ∧ -1074 ≤ e ∧ e ≤ 971 ∧ (twoTo 52 ≤ m ∨ e = -1074) := by
  have fields : Parts.finite (isNegative s) m e = .ofFields (signBit b) (exponentBits b) (fractionBits b) :=
    (congrArg Parts.ofUnpacked form).symm.trans (Parts.ofUnpacked_unpack b)
  rw [Parts.ofFields] at fields
  have exponent := (exponentBits b).isLt
  have fraction := (fractionBits b).isLt
  have half : twoTo 52 = 2 ^ 52 := rfl
  have full : twoTo 53 = 2 * 2 ^ 52 := rfl
  split at fields
  · split at fields <;> cases fields
  split at fields <;> obtain ⟨-, rfl, rfl⟩ := Parts.finite.inj fields
  · exact ⟨by omega, by omega, by omega, .inr rfl⟩
  · exact ⟨by omega, by omega, by omega, .inl (by omega)⟩

/-- Bits keep their parts, also those of an undefined number, which may change. -/
theorem parts_ofBits (u : UInt64) : parts (.ofBits u) =
    .ofFields (signBit u.toBitVec) (exponentBits u.toBitVec) (fractionBits u.toBitVec) := by
  rw [← Parts.ofUnpacked_unpack]
  refine (parts_ofModel _).trans ?_
  cases form : UnpackedFloat.unpack .binary64 u.toBitVec with
  | notANumber => exact packedParts_notANumber
  | infinity s => exact packedParts_infinity s
  | zero s => exact packedParts_zero s
  | finite s m e pos =>
    obtain ⟨wide, least, range, canonical⟩ := unpack_finite form
    exact packedParts_canonical pos wide least range canonical

/-- The parts of a number that is no more than infinite, by its bits without the sign. -/
theorem parts_ofBits_magnitude (negative : Bool) {bits : Nat} (le : bits ≤ 2047 * twoTo 52) :
    parts (.ofBits (UInt64.ofNat ((if negative then twoTo 63 else 0) + bits))) =
      if bits / twoTo 52 = 2047 then .infinite negative
      else if bits / twoTo 52 = 0 then .finite negative (bits % twoTo 52) (-1074)
      else .finite negative (twoTo 52 + bits % twoTo 52) ((bits / twoTo 52 : Nat) - 1075) := by
  have unit : twoTo 52 = 4503599627370496 := rfl
  have top : twoTo 63 = 9223372036854775808 := rfl
  have fields : twoTo 11 = 2048 := rfl
  obtain ⟨sign, isSign, weight⟩ : ∃ sign, (if negative then twoTo 63 else 0) = sign ∧
      (sign = if negative then 9223372036854775808 else 0) := ⟨_, rfl, by rw [top]⟩
  rw [parts_ofBits, Parts.ofFields, isSign]
  have toNat : (UInt64.ofNat (sign + bits)).toBitVec.toNat = sign + bits := by
    refine (UInt64.toNat_ofNat').trans (Nat.mod_eq_of_lt ?_)
    split at weight <;> omega
  simp only [toNat_signBit, toNat_exponentBits, toNat_fractionBits, toNat]
  rw [unit, top, fields]
  rw [unit] at le
  have isNegative : decide (1 ≤ (sign + bits) / 9223372036854775808) = negative := by
    cases negative
    · exact decide_eq_false (by simp only [Bool.false_eq_true, if_false] at weight; omega)
    · exact decide_eq_true (by simp only [if_true] at weight; omega)
  have exponent : (sign + bits) / 4503599627370496 % 2048 = bits / 4503599627370496 := by
    split at weight <;> omega
  have fraction : (sign + bits) % 4503599627370496 = bits % 4503599627370496 := by
    split at weight <;> omega
  rw [isNegative, exponent, fraction]
  split
  · rw [if_pos (by omega)]
  · rfl

/-! ## Magnitudes -/

/-- The number is finite and less than a power of two. -/
def Parts.Below (k : Int) : Parts → Prop
  | .finite _ m e => m < twoTo 53 ∧ e + 53 ≤ k
  | _ => False

instance (k : Int) (p : Parts) : Decidable (p.Below k) :=
  match p with
  | .finite _ m e => inferInstanceAs (Decidable (m < twoTo 53 ∧ e + 53 ≤ k))
  | .infinite _ => inferInstanceAs (Decidable False)
  | .undefined => inferInstanceAs (Decidable False)

/-- The number is finite and less than a power of two. -/
def Below (k : Int) (x : Float) : Prop := (parts x).Below k

instance (k : Int) (x : Float) : Decidable (Below k x) := inferInstanceAs (Decidable ((parts x).Below k))

/-- The number will be less than a power of two when it is packed. -/
def Small (k : Int) : UnpackedFloat → Prop
  | .zero _ => True
  | .finite _ _ e _ => e + 53 ≤ k
  | _ => False

theorem Small.packedParts {f : UnpackedFloat} {k : Int} (small : Small k f) (least : -1021 ≤ k) (range : k ≤ 1024) :
    (packedParts f).Below k := by
  cases f with
  | notANumber => exact small.elim
  | infinity s => exact small.elim
  | zero s =>
    rw [packedParts_zero]
    exact ⟨twoTo_pos 53, by omega⟩
  | finite s m e pos =>
    have unit : e + 53 ≤ k := small
    obtain ⟨m', e', same, wide, exponent⟩ := packedParts_finite (s := s) pos (by omega : e ≤ 971)
    rw [same]
    exact ⟨wide, by omega⟩

/-! ## Rounding -/

theorem shiftRight_mantissa (x : ExtendedMantissa) (n : Nat) : (x >>> n).mantissa = x.mantissa / 2 ^ n := by
  induction n with
  | zero => exact (Nat.div_one _).symm
  | succ n ih =>
    change (x >>> n).mantissa / 2 = _
    rw [ih, Nat.div_div_eq_div_mul, Nat.pow_succ]

theorem roundedMantissa_le (x : ExtendedMantissa) : x.roundedMantissa ≤ x.mantissa + 1 := by
  unfold ExtendedMantissa.roundedMantissa Accuracy.roundToNearestEven
  split <;> omega

theorem ofMantissaAndAccuracy_mantissa (m : Nat) (a : Accuracy) :
    (ExtendedMantissa.ofMantissaAndAccuracy m a).mantissa = m := by
  unfold ExtendedMantissa.ofMantissaAndAccuracy
  split <;> rfl

theorem targetExponent_eq (t : Int) : Format.binary64.targetExponent t = max (t - 53) (-1074) := rfl

theorem log2_le_of_le {m n : Nat} (le : m ≤ n) : m.log2 ≤ n.log2 := by
  by_cases none : m = 0
  · simp [none]
  · exact (Nat.le_log2 (by omega)).2 (Nat.le_trans (Nat.log2_self_le none) le)

/-- A significand cut short and rounded up has at most one digit more. -/
theorem log2_cut (m n : Nat) : (m / 2 ^ n + 1).log2 ≤ m.log2 + 1 - n := by
  have room : m / 2 ^ n + 1 ≤ 2 ^ (m.log2 + 1 - n) := by
    by_cases short : n ≤ m.log2 + 1
    · refine Nat.div_lt_of_lt_mul ?_
      rw [← Nat.pow_add, Nat.add_sub_cancel' short]
      exact Nat.lt_log2_self
    · have none : m / 2 ^ n = 0 := Nat.div_eq_of_lt <|
        Nat.lt_of_lt_of_le Nat.lt_log2_self (Nat.pow_le_pow_right (by decide) (by omega))
      rw [none]
      exact Nat.one_le_two_pow
  calc (m / 2 ^ n + 1).log2 ≤ (2 ^ (m.log2 + 1 - n)).log2 := log2_le_of_le room
    _ = m.log2 + 1 - n := Nat.log2_two_pow

theorem shiftToTargetExponent_eq {m : Nat} {e e' : Int} {a : Accuracy} {x : ExtendedMantissa}
    (shifted : shiftToTargetExponent .binary64 m e a = (x, e')) :
    x.mantissa = m / 2 ^ (e' - e).toNat ∧ e' = max e (max (m.log2 + 1 + e - 53) (-1074)) := by
  unfold shiftToTargetExponent shiftToExponent totalExponent at shifted
  rw [targetExponent_eq] at shifted
  obtain ⟨rfl, rfl⟩ := Prod.mk.inj shifted
  rw [shiftRight_mantissa, ofMantissaAndAccuracy_mantissa]
  refine ⟨?_, by omega⟩
  congr 2
  omega

/-- A rounded number is less than a power of two that its leading digit is two places below. -/
theorem roundWithAccuracy_small {s : Sign} {m : Nat} {e k : Int} {a : Accuracy} (lead : (m.log2 : Int) + 2 + e ≤ k)
    (unit : e + 53 ≤ k) (least : -1021 ≤ k) : Small k (roundWithAccuracy .binary64 s m e a) := by
  unfold roundWithAccuracy
  rcases first : shiftToTargetExponent .binary64 m e a with ⟨x, e'⟩
  obtain ⟨cut, exponent⟩ := shiftToTargetExponent_eq first
  have short : x.roundedMantissa.log2 ≤ m.log2 + 1 - (e' - e).toNat :=
    Nat.le_trans (log2_le_of_le (cut ▸ roundedMantissa_le x)) (log2_cut m _)
  -- a significand that has grown by a digit is cut once more
  rcases second : shiftToTargetExponent .binary64 x.roundedMantissa e' .exact with ⟨y, e''⟩
  obtain ⟨_, exponent'⟩ := shiftToTargetExponent_eq second
  dsimp only
  rw [second]
  dsimp only
  by_cases none : y.mantissa = 0
  · rw [dif_pos none]
    trivial
  · rw [dif_neg none]
    change e'' + 53 ≤ k
    omega

/-! ## Operations -/

theorem log2_shiftLeft {m : Nat} (some : m ≠ 0) (n : Nat) : (m <<< n).log2 = m.log2 + n := by
  induction n with
  | zero => rfl
  | succ n ih =>
    have some' : m <<< n ≠ 0 := by
      rw [Nat.shiftLeft_eq]
      exact Nat.mul_ne_zero some (Nat.ne_of_gt (Nat.two_pow_pos n))
    rw [Nat.shiftLeft_succ, Nat.log2_two_mul some', ih, Nat.add_assoc]

theorem round_small {s : Sign} {m : Nat} {e k : Int} (some : m ≠ 0) (lead : (m.log2 : Int) + 2 + e ≤ k)
    (least : -1021 ≤ k) : Small k (UnpackedFloat.round .binary64 s m e) := by
  unfold UnpackedFloat.round decreaseExponent totalExponent
  rw [targetExponent_eq]
  refine roundWithAccuracy_small ?_ ?_ least
  · rw [log2_shiftLeft some]
    omega
  · omega

theorem normalize_small {n e k : Int} {z : Sign} (lead : (n.natAbs.log2 : Int) + 2 + e ≤ k) (least : -1021 ≤ k) :
    Small k (UnpackedFloat.normalize .binary64 n e z) := by
  unfold UnpackedFloat.normalize
  split
  · rename_i below
    have negative := Int.compare_eq_lt.1 below
    exact round_small (by omega) (by rwa [show (-n).toNat = n.natAbs by omega]) least
  · trivial
  · rename_i above
    have positive := Int.compare_eq_gt.1 above
    exact round_small (by omega) (by rwa [show n.toNat = n.natAbs by omega]) least

/-- The number is finite and less than a power of two, as operations see it. -/
def Operand (k : Int) : UnpackedFloat → Prop
  | .zero _ => True
  | .finite _ m e _ => m < 2 ^ 53 ∧ e + 53 ≤ k
  | _ => False

section Operations
variable {f g : UnpackedFloat} {k l : Int}

theorem mul_small (first : Operand k f) (second : Operand l g) (least : -1021 ≤ k + l + 1) :
    Small (k + l + 1) (UnpackedFloat.mul .binary64 f g) := by
  match f, g, first, second with
  | .zero _, .zero _, _, _ => trivial
  | .zero _, .finite .., _, _ => trivial
  | .finite .., .zero _, _, _ => trivial
  | .finite _ m e _, .finite _ m' e' _, ⟨wide, unit⟩, ⟨wide', unit'⟩ =>
    have product : m * m' < 2 ^ 53 * 2 ^ 53 := Nat.mul_lt_mul'' wide wide'
    have digits : (m * m').log2 < 106 := log2_lt_of_lt (by decide) product
    exact roundWithAccuracy_small (by omega) (by omega) least

theorem natAbs_apply (s : Sign) (n : Int) : (s.apply n).natAbs = n.natAbs := by
  cases s
  · exact Int.natAbs_neg n
  · rfl

/-- A significand brought to a smaller exponent, for a number less than a power of two. -/
theorem lowered_lt {m : Nat} {e low k : Int} (wide : m < 2 ^ 53) (unit : e + 53 ≤ k) (le : low ≤ e) :
    m * 2 ^ (e - low).toNat < 2 ^ (k - low).toNat := calc
  m * 2 ^ (e - low).toNat < 2 ^ 53 * 2 ^ (e - low).toNat := Nat.mul_lt_mul_of_pos_right wide (Nat.two_pow_pos _)
  _ = 2 ^ (53 + (e - low).toNat) := (Nat.pow_add ..).symm
  _ ≤ 2 ^ (k - low).toNat := Nat.pow_le_pow_right (by decide) (by omega)

theorem decreaseExponent_lt {m : Nat} {e e' : Int} (wide : m < 2 ^ 53) (unit : e + 53 ≤ k) (le : e' ≤ e) :
    (decreaseExponent m e e').1 < 2 ^ (k - e').toNat := by
  change m <<< (e - e').toNat < _
  rw [Nat.shiftLeft_eq]
  exact lowered_lt wide unit le

theorem normalize_sum_small {a b e : Int} {z : Sign} (first : a.natAbs < 2 ^ (k - e).toNat)
    (second : b.natAbs < 2 ^ (k - e).toNat) (le : e ≤ k) (least : -1021 ≤ k + 2) :
    Small (k + 2) (UnpackedFloat.normalize .binary64 (a + b) e z) := by
  have double : 2 ^ ((k - e).toNat + 1) = 2 * 2 ^ (k - e).toNat := by rw [Nat.pow_succ]; omega
  have sum : (a + b).natAbs < 2 ^ ((k - e).toNat + 1) := by omega
  have digits := log2_lt_of_lt (by omega) sum
  exact normalize_small (by omega) least

/-- The sum of two numbers less than a power of two is less than its fourfold. -/
theorem add_small (first : Operand k f) (second : Operand k g) (least : -1021 ≤ k) :
    Small (k + 2) (UnpackedFloat.add .binary64 f g) := by
  match f, g, first, second with
  | .zero s, .zero s', _, _ => cases s <;> cases s' <;> trivial
  | .zero _, .finite _ m e _, _, ⟨_, unit⟩ =>
    change e + 53 ≤ k + 2
    omega
  | .finite _ m e _, .zero _, ⟨_, unit⟩, _ =>
    change e + 53 ≤ k + 2
    omega
  | .finite s m e _, .finite s' m' e' _, ⟨wide, unit⟩, ⟨wide', unit'⟩ =>
    refine normalize_sum_small ?_ ?_ (by omega) (by omega)
    · rw [natAbs_apply]
      exact decreaseExponent_lt wide unit (Int.min_le_left ..)
    · rw [natAbs_apply]
      exact decreaseExponent_lt wide' unit' (Int.min_le_right ..)

theorem Operand.neg (operand : Operand k f) : Operand k f.neg := by
  cases f <;> exact operand

theorem sub_eq_add_neg (f g : UnpackedFloat) :
    UnpackedFloat.sub .binary64 f g = UnpackedFloat.add .binary64 f g.neg := by
  match f, g with
  | .finite s m e _, .finite s' m' e' _ =>
    have opposite (n : Int) : (-s').apply n = -s'.apply n := by
      cases s'
      · exact (Int.neg_neg n).symm
      · rfl
    change UnpackedFloat.normalize _ (_ - _) _ _ = UnpackedFloat.normalize _ (_ + _) _ _
    rw [opposite]
    rfl
  | .notANumber, g => rfl
  | .infinity s, g => cases g <;> rfl
  | .zero s, g => cases g <;> rfl
  | .finite .., .notANumber => rfl
  | .finite .., .infinity _ => rfl
  | .finite .., .zero _ => rfl

/-- The number is infinite, or no less than a power of two, as operations see it. -/
def Divisor (l : Int) : UnpackedFloat → Prop
  | .finite _ m e _ => l ≤ m.log2 + e
  | .infinity _ => True
  | _ => False

theorem log2_div_le (m : Nat) {n : Nat} (some : n ≠ 0) : (m / n).log2 ≤ m.log2 - n.log2 := by
  by_cases none : m / n = 0
  · rw [none]
    exact Nat.zero_le _
  have least := Nat.log2_self_le some
  have le : n.log2 ≤ m.log2 := log2_le_of_le <| Nat.le_of_not_lt fun less => none (Nat.div_eq_of_lt less)
  have room : m / n < 2 ^ (m.log2 - n.log2 + 1) := by
    rw [Nat.div_lt_iff_lt_mul (by omega)]
    calc m < 2 ^ (m.log2 + 1) := Nat.lt_log2_self
      _ = 2 ^ (m.log2 - n.log2 + 1) * 2 ^ n.log2 := by rw [← Nat.pow_add]; congr 1; omega
      _ ≤ 2 ^ (m.log2 - n.log2 + 1) * n := Nat.mul_le_mul_left _ least
  have := (Nat.log2_lt none).2 room
  omega

theorem div_small (first : Operand k f) (second : Divisor l g) (least : -1021 ≤ k - l + 1) :
    Small (k - l + 1) (UnpackedFloat.div .binary64 f g) := by
  match f, g, first, second with
  | .zero _, .infinity _, _, _ => trivial
  | .zero _, .finite .., _, _ => trivial
  | .finite .., .infinity _, _, _ => trivial
  | .finite s m e pos, .finite s' m' e' pos', ⟨wide, unit⟩, apart =>
    have apart : l ≤ m'.log2 + e' := apart
    have digits := log2_lt_of_lt (by decide) wide
    have quotient (n : Nat) : ((m <<< n) / m').log2 ≤ m.log2 + n - m'.log2 := by
      have := log2_div_le (m <<< n) (Nat.ne_of_gt pos')
      rwa [log2_shiftLeft (Nat.ne_of_gt pos)] at this
    have short := quotient (e - e' - min (e - e') (max (m.log2 + 1 + e - (m'.log2 + 1 + e') - 53) (-1074))).toNat
    refine roundWithAccuracy_small ?_ ?_ least
    · unfold totalExponent
      rw [targetExponent_eq]
      omega
    · unfold totalExponent
      rw [targetExponent_eq]
      omega

end Operations

namespace Below
variable {x y : Float} {k l : Int}

theorem operand (below : Below k x) : Operand k x.toModel.unpack := by
  unfold Below at below
  rw [parts_eq] at below
  cases form : x.toModel.unpack with
  | notANumber =>
    rw [form] at below
    exact below.elim
  | infinity s =>
    rw [form] at below
    exact below.elim
  | zero s => trivial
  | finite s m e pos =>
    rw [form] at below
    exact below

theorem of_small {f : UnpackedFloat} (small : Small k f) (least : -1021 ≤ k) (range : k ≤ 1024) :
    Below k (.ofModel (.pack f)) := by
  rw [Below, parts_ofModel]
  exact small.packedParts least range

theorem mul (first : Below k x) (second : Below l y) (least : -1021 ≤ k + l + 1) (range : k + l + 1 ≤ 1024) :
    Below (k + l + 1) (x * y) := of_small (mul_small first.operand second.operand least) least range

theorem add (first : Below k x) (second : Below k y) (least : -1021 ≤ k) (range : k + 2 ≤ 1024) :
    Below (k + 2) (x + y) := of_small (add_small first.operand second.operand least) (by omega) range

theorem sub (first : Below k x) (second : Below k y) (least : -1021 ≤ k) (range : k + 2 ≤ 1024) :
    Below (k + 2) (x - y) := by
  have small := add_small first.operand second.operand.neg least
  rw [← sub_eq_add_neg] at small
  exact of_small small (by omega) range

theorem div {k l : Int} (first : Below k x) (second : Divisor l y.toModel.unpack) (least : -1021 ≤ k - l + 1)
    (range : k - l + 1 ≤ 1024) : Below (k - l + 1) (x / y) :=
  of_small (div_small first.operand second least) least range

theorem mono (below : Below k x) (le : k ≤ l) : Below l x := by
  unfold Below at below ⊢
  cases form : parts x with
  | finite negative m e =>
    rw [form] at below
    exact ⟨below.1, by have := below.2; omega⟩
  | infinite negative =>
    rw [form] at below
    exact below.elim
  | undefined =>
    rw [form] at below
    exact below.elim

theorem wholeBy_ok (f : Bool → Nat → Nat → Int) (below : Below k x) : ∃ n, wholeBy f x = .ok n := by
  unfold Below at below
  unfold wholeBy
  cases form : parts x with
  | finite negative m e => exact ⟨_, rfl⟩
  | infinite negative =>
    rw [form] at below
    exact below.elim
  | undefined =>
    rw [form] at below
    exact below.elim

theorem round_ok (below : Below k x) : ∃ n, round x = .ok n := wholeBy_ok _ below

theorem truncate_ok (below : Below k x) : ∃ n, truncate x = .ok n := wholeBy_ok _ below

end Below

theorem halfEven_zero {d : Nat} (pos : 0 < d) : halfEven 0 d = 0 := by
  simp [halfEven, pos]

theorem round_zero_div {y : Float} {n : Int} (rounded : round (ofInt 0 / y) = .ok n) : n = 0 := by
  have zero : (ofInt 0).toModel.unpack = .zero .positive := by rfl
  have quotient : ofInt 0 / y = .ofModel (.pack (UnpackedFloat.div .binary64 (.zero .positive) y.toModel.unpack)) := by
    rw [← zero]
    rfl
  have undefined (same : parts (ofInt 0 / y) = .undefined) : n = 0 := by
    rw [round, wholeBy, same] at rounded
    cases rounded
  have none {negative : Bool} (same : parts (ofInt 0 / y) = .finite negative 0 (-1074)) : n = 0 := by
    rw [round, wholeBy, same] at rounded
    dsimp only at rounded
    rw [Nat.zero_mul] at rounded
    obtain rfl := Except.ok.inj rounded
    rw [Int.ofNat_zero, halfEven_zero (twoTo_pos _)]
    cases negative <;> rfl
  rw [quotient, parts_ofModel] at undefined none
  cases divisor : y.toModel.unpack with
  | notANumber => exact undefined (by rw [divisor]; exact packedParts_notANumber)
  | zero s => exact undefined (by rw [divisor]; exact packedParts_notANumber)
  | infinity s => exact none (by rw [divisor]; exact packedParts_zero _)
  | finite s m e pos => exact none (by rw [divisor]; exact packedParts_zero _)

/-! ## The nearest binary number -/

theorem below_ofBits (negative : Bool) {bits n : Nat} (less : bits < n * twoTo 52) (range : n ≤ 2047) :
    Below (n - 1022) (.ofBits (UInt64.ofNat ((if negative then twoTo 63 else 0) + bits))) := by
  have unit : twoTo 52 = 2 ^ 52 := rfl
  have full : twoTo 53 = 2 * 2 ^ 52 := rfl
  rw [unit] at less
  rw [Below, parts_ofBits_magnitude negative (by omega), unit, if_neg (by omega)]
  split
  · exact ⟨by omega, by omega⟩
  · exact ⟨by omega, by omega⟩

/-- The number is infinite, or no less than a power of two. -/
def Parts.AtLeast (l : Int) : Parts → Prop
  | .finite _ m e => m ≠ 0 ∧ l ≤ m.log2 + e
  | .infinite _ => True
  | .undefined => False

instance (l : Int) (p : Parts) : Decidable (p.AtLeast l) :=
  match p with
  | .finite _ m e => inferInstanceAs (Decidable (m ≠ 0 ∧ l ≤ m.log2 + e))
  | .infinite _ => inferInstanceAs (Decidable True)
  | .undefined => inferInstanceAs (Decidable False)

/-- The number is infinite, or no less than a power of two. -/
def AtLeast (l : Int) (x : Float) : Prop := (parts x).AtLeast l

instance (l : Int) (x : Float) : Decidable (AtLeast l x) := inferInstanceAs (Decidable ((parts x).AtLeast l))

theorem AtLeast.mono {x : Float} {k l : Int} (atLeast : AtLeast l x) (le : k ≤ l) : AtLeast k x := by
  unfold AtLeast at atLeast ⊢
  cases form : parts x with
  | finite negative m e =>
    rw [form] at atLeast
    exact ⟨atLeast.1, Int.le_trans le atLeast.2⟩
  | infinite negative => trivial
  | undefined =>
    rw [form] at atLeast
    exact atLeast.elim

theorem AtLeast.divisor {x : Float} {l : Int} (atLeast : AtLeast l x) : Divisor l x.toModel.unpack := by
  unfold AtLeast at atLeast
  rw [parts_eq] at atLeast
  cases form : x.toModel.unpack with
  | notANumber =>
    rw [form] at atLeast
    exact atLeast.elim
  | infinity s => trivial
  | zero s =>
    rw [form] at atLeast
    exact absurd rfl atLeast.1
  | finite s m e pos =>
    rw [form] at atLeast
    exact atLeast.2

theorem atLeast_ofBits (negative : Bool) {bits n : Nat} (le : n * twoTo 52 ≤ bits) (pos : 0 < n)
    (range : bits ≤ 2047 * twoTo 52) :
    AtLeast (n - 1023) (.ofBits (UInt64.ofNat ((if negative then twoTo 63 else 0) + bits))) := by
  have unit : twoTo 52 = 2 ^ 52 := rfl
  rw [AtLeast, parts_ofBits_magnitude negative range]
  rw [unit] at le range ⊢
  split
  · trivial
  rw [if_neg (by omega)]
  have lead : (2 ^ 52 + bits % 2 ^ 52).log2 = 52 := by
    rw [Nat.log2_eq_iff (by omega)]
    omega
  exact ⟨by omega, by rw [lead]; omega⟩

theorem halfEven_le {n : Int} {d : Nat} {q : Int} (pos : 0 < d) (le : n ≤ d * q) : halfEven n d ≤ q := by
  have bound := (two_mul_halfEven_le n pos).2
  have wide : (d : Int) * (2 * halfEven n d) < d * (2 * q + 2) := by
    rw [Int.mul_add, Int.mul_left_comm, Int.mul_left_comm (d : Int) 2]
    omega
  have := Int.lt_of_mul_lt_mul_left wide (by omega)
  omega

theorem halfEven_nonneg (n d : Nat) : 0 ≤ halfEven n d := by
  have nonneg : (0 : Int) ≤ n / d := Int.ediv_nonneg (Int.natCast_nonneg n) (Int.natCast_nonneg d)
  unfold halfEven
  dsimp only
  split <;> omega

theorem log2_mul_twoTo {n : Nat} (some : n ≠ 0) (k : Nat) : (n * twoTo k).log2 = n.log2 + k := by
  rw [← log2_shiftLeft some, Nat.shiftLeft_eq]
  rfl

theorem le_leadingExponent (n d : Nat) : (n.log2 : Int) - d.log2 - 1 ≤ leadingExponent n d := by
  unfold leadingExponent
  dsimp only
  split <;> omega

theorem leadingExponent_le (n d : Nat) : leadingExponent n d ≤ (n.log2 : Int) - d.log2 := by
  unfold leadingExponent
  dsimp only
  split <;> omega

theorem mul_twoTo_ne_zero {n : Nat} (some : n ≠ 0) (k : Nat) : n * twoTo k ≠ 0 :=
  Nat.mul_ne_zero some (Nat.ne_of_gt (twoTo_pos k))

/-- The significand that a quotient is rounded to has no more than fifty-four digits. -/
theorem significand_le {n d : Nat} {unit : Int} (some : n ≠ 0) (pos : d ≠ 0)
    (near : (n.log2 : Int) - d.log2 ≤ unit + 53) :
    (halfEven (n * twoTo (-unit).toNat : Nat) (d * twoTo unit.toNat)).toNat ≤ 2 ^ 54 := by
  have some' := mul_twoTo_ne_zero pos unit.toNat
  have wide : n * twoTo (-unit).toNat < d * twoTo unit.toNat * 2 ^ 54 :=
    calc n * twoTo (-unit).toNat < 2 ^ ((n * twoTo (-unit).toNat).log2 + 1) := Nat.lt_log2_self
      _ ≤ 2 ^ ((d * twoTo unit.toNat).log2 + 54) := by
        refine Nat.pow_le_pow_right (by decide) ?_
        rw [log2_mul_twoTo some, log2_mul_twoTo pos]
        omega
      _ = 2 ^ (d * twoTo unit.toNat).log2 * 2 ^ 54 := Nat.pow_add ..
      _ ≤ d * twoTo unit.toNat * 2 ^ 54 := Nat.mul_le_mul_right _ (Nat.log2_self_le some')
  have le : ((n * twoTo (-unit).toNat : Nat) : Int) ≤ (d * twoTo unit.toNat : Nat) * (2 ^ 54 : Nat) :=
    Int.ofNat_le.2 (Nat.le_of_lt wide)
  have := halfEven_le (Nat.pos_of_ne_zero some') le
  omega

/-- The bits of the nearest number to a quotient, to within four units of its exponent. -/
theorem ofSignedRatio_bits (negative : Bool) {n d : Nat} (some : n ≠ 0) (pos : d ≠ 0) :
    ∃ (unit : Int) (bits : Nat), ofSignedRatio negative n d =
        .ofBits (UInt64.ofNat ((if negative then twoTo 63 else 0) + min bits (2047 * twoTo 52))) ∧
      unit.toNat * twoTo 52 ≤ bits ∧ bits ≤ (unit.toNat + 4) * twoTo 52 ∧
      max ((n.log2 : Int) - d.log2 + 1021) 0 ≤ unit ∧ unit ≤ max ((n.log2 : Int) - d.log2 + 1022) 0 := by
  have low := le_leadingExponent n d
  have high := leadingExponent_le n d
  refine ⟨max (leadingExponent n d - 52) (-1074) + 1074, _, if_neg some, Nat.le_add_right .., ?_, by omega, by omega⟩
  rw [Nat.add_mul]
  exact Nat.add_le_add_left (significand_le some pos (by omega)) _

/-- The nearest number to a quotient is less than a power of two that the quotient is well below. -/
theorem below_ofSignedRatio (negative : Bool) {n d : Nat} {k : Int} (pos : d ≠ 0) (lead : (n.log2 : Int) - d.log2 ≤ k)
    (least : -1000 ≤ k) (range : k ≤ 1000) : Below (k + 5) (ofSignedRatio negative n d) := by
  by_cases none : n = 0
  · have zero : 0 < 1 * twoTo 52 := by decide
    rw [none]
    exact (below_ofBits negative zero (by decide)).mono (by omega)
  obtain ⟨unit, bits, same, _, le, _, le'⟩ := ofSignedRatio_bits negative none pos
  rw [same]
  have less : bits < (unit.toNat + 5) * twoTo 52 := Nat.lt_of_le_of_lt le <|
    Nat.mul_lt_mul_of_pos_right (by omega) (twoTo_pos 52)
  exact (below_ofBits negative (Nat.lt_of_le_of_lt (Nat.min_le_left ..) less) (by omega)).mono (by omega)

/-- The nearest number to a quotient is no less than a power of two that the quotient is well above. -/
theorem atLeast_ofSignedRatio (negative : Bool) {n d : Nat} {l : Int} (some : n ≠ 0) (pos : d ≠ 0)
    (lead : l ≤ (n.log2 : Int) - d.log2) (least : -1000 ≤ l) (range : l ≤ 1000) :
    AtLeast (l - 2) (ofSignedRatio negative n d) := by
  obtain ⟨unit, bits, same, le, _, le', _⟩ := ofSignedRatio_bits negative some pos
  rw [same]
  have enough : (l + 1021).toNat * twoTo 52 ≤ min bits (2047 * twoTo 52) := Nat.le_min.2
    ⟨Nat.le_trans (Nat.mul_le_mul_right _ (by omega)) le, Nat.mul_le_mul_right _ (by omega)⟩
  have atLeast := atLeast_ofBits negative enough (by omega) (Nat.min_le_right ..)
  rwa [show ((l + 1021).toNat : Int) - 1023 = l - 2 by omega] at atLeast

/-! ## Whole numbers and lengths -/

section
variable {n : Int} {k : Nat}

theorem below_ofRatio {d : Nat} (small : n.natAbs < 2 ^ k) (some : d ≠ 0) (pos : 0 < k) (range : k ≤ 1000) :
    Below (k + 5) (ofRatio n d) := by
  have digits := log2_lt_of_lt pos small
  exact below_ofSignedRatio _ some (by omega) (by omega) (by omega)

theorem below_ofInt (small : n.natAbs < 2 ^ k) (pos : 0 < k) (range : k ≤ 1000) : Below (k + 5) (ofInt n) :=
  below_ofRatio small Nat.one_ne_zero pos range

theorem atLeast_ofInt (some : n ≠ 0) : AtLeast (-2) (ofInt n) :=
  atLeast_ofSignedRatio (l := 0) _ (Int.natAbs_ne_zero.2 some) Nat.one_ne_zero
    (by rw [show Nat.log2 1 = 0 by decide]; omega) (by decide) (by decide)

/-- The nearest whole number to a number less than a power of two is no greater than it. -/
theorem Below.round_le {x : Float} (below : Below k x) (rounded : round x = .ok n) : n.natAbs ≤ 2 ^ k := by
  unfold Below at below
  unfold round wholeBy at rounded
  cases form : parts x with
  | infinite negative =>
    rw [form] at below
    exact below.elim
  | undefined =>
    rw [form] at below
    exact below.elim
  | finite negative m e =>
    rw [form] at below rounded
    obtain ⟨wide, unit⟩ := below
    obtain rfl := Except.ok.inj rounded
    have quotient : m * twoTo e.toNat ≤ twoTo (-e).toNat * 2 ^ k := calc
      m * twoTo e.toNat ≤ 2 ^ 53 * 2 ^ e.toNat := Nat.mul_le_mul_right _ (Nat.le_of_lt wide)
      _ = 2 ^ (53 + e.toNat) := (Nat.pow_add ..).symm
      _ ≤ 2 ^ ((-e).toNat + k) := Nat.pow_le_pow_right (by decide) (by omega)
      _ = twoTo (-e).toNat * 2 ^ k := Nat.pow_add ..
    have le : ((m * twoTo e.toNat : Nat) : Int) ≤ (twoTo (-e).toNat : Nat) * (2 ^ k : Nat) := Int.ofNat_le.2 quotient
    have high := halfEven_le (twoTo_pos (-e).toNat) le
    have low := halfEven_nonneg (m * twoTo e.toNat) (twoTo (-e).toNat)
    dsimp only
    split <;> omega

/-- The whole part of a square root is no less than what has a smaller square. -/
theorem le_sqrtBits {c m : Nat} (k : Nat) (wide : m < 4 ^ k) (square : c * c ≤ m) : c ≤ sqrtBits k m := by
  induction k generalizing c m with
  | zero =>
    have none : c * c = 0 := by omega
    rw [(Nat.mul_eq_zero.1 none).elim id id]
    exact Nat.zero_le _
  | succ k ih =>
    have half : c / 2 ≤ sqrtBits k (m / 4) := by
      refine ih (by rw [Nat.pow_succ] at wide; omega) ((Nat.le_div_iff_mul_le (by decide)).2 ?_)
      calc c / 2 * (c / 2) * 4 = c / 2 * 2 * (c / 2 * 2) := by rw [Nat.mul_mul_mul_comm]
        _ ≤ c * c := Nat.mul_le_mul (Nat.div_mul_le_self c 2) (Nat.div_mul_le_self c 2)
        _ ≤ m := square
    unfold sqrtBits
    dsimp only
    split
    · omega
    · rename_i less
      have le : c ≤ 2 * sqrtBits k (m / 4) + 1 := by omega
      rcases Nat.lt_or_eq_of_le le with below | rfl
      · omega
      · exact absurd square less

theorem le_sqrtFloor {c m : Nat} (square : c * c ≤ m) : c ≤ sqrtFloor m := by
  refine le_sqrtBits _ ?_ square
  rw [show 4 = 2 ^ 2 by rfl, ← Nat.pow_mul]
  exact Nat.lt_of_lt_of_le Nat.lt_log2_self (Nat.pow_le_pow_right (by decide) (by omega))

theorem atLeast_sqrtScaled {c m : Nat} {e l : Int} (some : c ≠ 0) (square : c * c ≤ m) (lead : l ≤ c.log2 + e / 2)
    (least : -1000 ≤ l) (range : l ≤ 1000) : AtLeast (l - 2) (sqrtScaled m e) := by
  have root : c * twoTo 64 ≤ sqrtFloor (m * twoTo 128) := le_sqrtFloor <| calc
    c * twoTo 64 * (c * twoTo 64) = c * c * twoTo 128 := Nat.mul_mul_mul_comm ..
    _ ≤ m * twoTo 128 := Nat.mul_le_mul_right _ square
  have some' := mul_twoTo_ne_zero some 64
  have digits (sticky : Nat) : c.log2 + 65 ≤ (2 * sqrtFloor (m * twoTo 128) + sticky).log2 := calc
    c.log2 + 65 = (2 * (c * twoTo 64)).log2 := by rw [Nat.log2_two_mul some', log2_mul_twoTo some]
    _ ≤ _ := log2_le_of_le (by omega)
  unfold sqrtScaled
  refine atLeast_ofSignedRatio false (mul_twoTo_ne_zero (by omega) _) (Nat.ne_of_gt (twoTo_pos _)) ?_ least range
  rw [log2_mul_twoTo (by omega), show (twoTo (-(e / 2 - 65)).toNat).log2 = _ from Nat.log2_two_pow]
  have := digits (if sqrtFloor (m * twoTo 128) * sqrtFloor (m * twoTo 128) = m * twoTo 128 then 0 else 1)
  omega

/-- A hypotenuse is no less than a leg. -/
theorem atLeast_hypot {x y : Float} {k l : Int} (first : Below k x) (second : Below k y)
    (leg : AtLeast l x ∨ AtLeast l y) (least : -1000 ≤ l) (range : l ≤ 1000) : AtLeast (l - 2) (hypot x y) := by
  unfold Below at first second
  unfold AtLeast at leg
  unfold hypot
  cases formed : parts x with
  | infinite negative =>
    rw [formed] at first
    exact first.elim
  | undefined =>
    rw [formed] at first
    exact first.elim
  | finite negative m e =>
    cases formed' : parts y with
    | infinite negative =>
      rw [formed'] at second
      exact second.elim
    | undefined =>
      rw [formed'] at second
      exact second.elim
    | finite negative' n f =>
      rw [formed, formed'] at leg
      dsimp only
      rcases leg with ⟨some, lead⟩ | ⟨some, lead⟩
      · refine atLeast_sqrtScaled (mul_twoTo_ne_zero some (e - min e f).toNat) (Nat.le_add_right ..) ?_ least range
        rw [log2_mul_twoTo some]
        omega
      · refine atLeast_sqrtScaled (mul_twoTo_ne_zero some (f - min e f).toNat) (Nat.le_add_left ..) ?_ least range
        rw [log2_mul_twoTo some]
        omega

theorem atLeast_hypotInt {x y : Int} (some : x ≠ 0 ∨ y ≠ 0) (first : x.natAbs < 2 ^ k) (second : y.natAbs < 2 ^ k)
    (pos : 0 < k) (range : k ≤ 1000) : AtLeast (-4) (hypotInt x y) :=
  atLeast_hypot (below_ofInt first pos range) (below_ofInt second pos range) (some.imp atLeast_ofInt atLeast_ofInt)
    (by decide) (by decide)

end

end Redraft.Number

namespace Redraft
open Redraft.Number

/-- How many binary digits a moderate coordinate has at the most. -/
def moderateDigits : Nat := 930

/-- The coordinates are near enough to zero for all that is computed from them to be finite. -/
def Point.Moderate (p : Point) : Prop := p.x.natAbs < 2 ^ moderateDigits ∧ p.y.natAbs < 2 ^ moderateDigits

theorem two_pow_moderateDigits : 2 ^ (moderateDigits + 1) = 2 * 2 ^ moderateDigits := by
  rw [Nat.pow_add_one']

theorem lt_two_pow_of_le {m k l : Nat} (le : m ≤ 2 ^ k) (less : k < l) : m < 2 ^ l :=
  Nat.lt_of_le_of_lt le (Nat.pow_lt_pow_right (by decide) less)

/-- Both ends of the segment are near enough to the origin. -/
def Segment.Moderate (s : Segment) : Prop := s.a.Moderate ∧ s.b.Moderate

/-- A displacement of moderate length can be scaled to another. -/
theorem Point.resize_ok {v : Point} {length : Int} {k l : Nat} (first : v.x.natAbs < 2 ^ k) (second : v.y.natAbs < 2 ^ k)
    (small : length.natAbs < 2 ^ l) (pos : 0 < k) (range : k + l ≤ 1000) : ∃ w, v.resize length = .ok w := by
  by_cases none : v.x = 0 ∧ v.y = 0
  · have isZero : (hypotInt 0 0 == 0.0) = true := by rfl
    refine ⟨Point.origin, ?_⟩
    unfold Point.resize
    dsimp only
    rw [none.1, none.2, if_pos isZero]
    rfl
  have atLeast := atLeast_hypotInt (by omega) first second pos (by omega)
  have quotient {n : Int} (le : n.natAbs < 2 ^ k) : ∃ q, round (ofInt (n * length) / hypotInt v.x v.y) = .ok q := by
    have product : (n * length).natAbs < 2 ^ (k + l) := by
      rw [Int.natAbs_mul, Nat.pow_add]
      exact Nat.mul_lt_mul'' le small
    exact ((below_ofInt product (by omega) (by omega)).div atLeast.divisor (by omega) (by omega)).round_ok
  obtain ⟨x, isX⟩ := quotient first
  obtain ⟨y, isY⟩ := quotient second
  unfold Point.resize
  dsimp only
  split
  · exact ⟨_, rfl⟩
  · rw [isX, isY]
    exact ⟨_, rfl⟩

/-- A displacement along an axis stays along it when it is scaled. -/
theorem Point.resize_axis {v w : Point} {length : Int} (resized : v.resize length = .ok w) :
    (v.x = 0 → w.x = 0) ∧ (v.y = 0 → w.y = 0) := by
  unfold Point.resize at resized
  dsimp only at resized
  split at resized
  · obtain rfl := Except.ok.inj resized
    exact ⟨fun _ => rfl, fun _ => rfl⟩
  · cases isX : round (ofInt (v.x * length) / hypotInt v.x v.y) with
    | error cause =>
      rw [isX] at resized
      cases resized
    | ok x =>
      cases isY : round (ofInt (v.y * length) / hypotInt v.x v.y) with
      | error cause =>
        rw [isX, isY] at resized
        cases resized
      | ok y =>
        rw [isX, isY] at resized
        obtain rfl := Except.ok.inj resized
        refine ⟨fun none => ?_, fun none => ?_⟩
        · rw [none, Int.zero_mul] at isX
          exact round_zero_div isX
        · rw [none, Int.zero_mul] at isY
          exact round_zero_div isY

theorem Point.cross_resize_of_axis {v w : Point} {length : Int} (resized : v.resize length = .ok w)
    (axis : v.x = 0 ∨ v.y = 0) : Segment.cross v w = 0 := by
  obtain ⟨upright, level⟩ := resize_axis resized
  rcases axis with none | none
  · rw [Segment.cross, none, upright none, Int.zero_mul, Int.mul_zero, Int.sub_zero]
  · rw [Segment.cross, none, level none, Int.mul_zero, Int.zero_mul, Int.sub_zero]

end Redraft
