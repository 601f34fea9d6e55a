/-
Module: LineScript.Proofs.IntegerConversion
Purpose: An integer other than zero never becomes a zero when it is converted to a double.
Trusted boundary: none
Main exports: HasExponent, shiftToTargetExponent_bounds, isZero_iff_of_toFloat
-/
import Mathlib
import LineScript.Number.Arithmetic

/-!
A double whose exponent field is not zero is normal, infinite or not a number, and in no case a
zero. Rounding keeps a magnitude of at least one in that range: the significand it ends with has its
leading bit, so packing writes an exponent field other than zero. The conversion of an integer goes
through one rounding or, for a small one, through two, the second being a product with one.
-/

namespace LineScript.Number

open Float.Model Float.Model.UnpackedFloat

/-! ### Rounding to normal doubles -/

/-- The number is infinite, not a number, or finite with a leading bit and an exponent that a normal
double can have. -/
def IsNormal : UnpackedFloat → Prop
  | .finite _ mantissa exponent _ => mantissa.log2 = 52 ∧ -1074 ≤ exponent
  | .zero _ => False
  | .infinity _ => True
  | .notANumber => True

/-- Shifting right divides the mantissa, whatever the bits that fall off record of it. -/
theorem mantissa_shiftRight (extended : ExtendedMantissa) (count : Nat) :
    (extended >>> count).mantissa = extended.mantissa / 2 ^ count := by
  induction count with
  | zero => exact (Nat.div_one _).symm
  | succ count inductionHypothesis =>
    have step : (extended >>> (count + 1)).mantissa = (extended >>> count).mantissa / 2 := rfl
    rw [step, inductionHypothesis, Nat.div_div_eq_div_mul, Nat.pow_succ]

/-- Rounding moves a mantissa up by one at most. -/
theorem roundedMantissa_bounds (extended : ExtendedMantissa) :
    extended.mantissa ≤ extended.roundedMantissa ∧
      extended.roundedMantissa ≤ extended.mantissa + 1 := by
  obtain ⟨mantissa, roundBit, stickyBit⟩ := extended
  cases roundBit <;> cases stickyBit <;>
    simp only [ExtendedMantissa.roundedMantissa, ExtendedMantissa.accuracy,
      Accuracy.roundToNearestEven] <;> omega

/-- In the normal range the leading bit of the mantissa is to stand at place 52. -/
theorem targetExponent_eq {mantissa : Nat} {exponent : Int}
    (large : -1021 ≤ totalExponent mantissa exponent) :
    Format.binary64.targetExponent (totalExponent mantissa exponent) =
      mantissa.log2 + exponent - 52 := by
  unfold totalExponent at large
  simp only [Format.targetExponent, totalExponent, Format.mantissaBits, Format.minExponent]
  omega

theorem log2_mul_two_pow {number : Nat} (positive : number ≠ 0) (count : Nat) :
    (number * 2 ^ count).log2 = number.log2 + count := by
  induction count with
  | zero => rw [Nat.pow_zero, Nat.mul_one, Nat.add_zero]
  | succ count inductionHypothesis =>
    have doubled : number * 2 ^ (count + 1) = 2 * (number * 2 ^ count) := by
      rw [Nat.pow_succ, ← Nat.mul_assoc, Nat.mul_comm]
    have stillPositive : number * 2 ^ count ≠ 0 :=
      Nat.mul_ne_zero positive (Nat.ne_of_gt (Nat.two_pow_pos count))
    rw [doubled, Nat.log2_two_mul stillPositive, inductionHypothesis, Nat.add_assoc]

/-- Shifting to the target exponent leaves a significand of 53 bits. -/
theorem shiftToTargetExponent_bounds {mantissa : Nat} {exponent : Int} (positive : mantissa ≠ 0)
    (long : 52 ≤ mantissa.log2) (large : -1021 ≤ totalExponent mantissa exponent) :
    let shifted := shiftToTargetExponent Format.binary64 mantissa exponent .exact
    2 ^ 52 ≤ shifted.1.mantissa ∧ shifted.1.mantissa < 2 ^ 53 ∧
      shifted.2 = mantissa.log2 + exponent - 52 := by
  have amount : (Format.binary64.targetExponent (totalExponent mantissa exponent) -
      exponent).toNat = mantissa.log2 - 52 := by
    rw [targetExponent_eq large]
    omega
  have split : 2 ^ mantissa.log2 = 2 ^ 52 * 2 ^ (mantissa.log2 - 52) := by
    rw [← Nat.pow_add]
    congr 1
    omega
  have low := Nat.log2_self_le positive
  have high := Nat.lt_log2_self (n := mantissa)
  dsimp only [shiftToTargetExponent, shiftToExponent]
  rw [amount, mantissa_shiftRight]
  refine ⟨?_, ?_, by omega⟩
  · apply (Nat.le_div_iff_mul_le (Nat.two_pow_pos _)).mpr
    rw [← split]
    exact low
  · apply (Nat.div_lt_iff_lt_mul (Nat.two_pow_pos _)).mpr
    rw [Nat.pow_succ, split] at high
    simp only [ExtendedMantissa.ofMantissaAndAccuracy]
    omega

/-- A mantissa of at least 53 bits stays normal when it is rounded: it may be carried to the next
power of two, but it never loses its leading bit. -/
theorem isNormal_roundWithAccuracy (sign : Sign) {mantissa : Nat} {exponent : Int}
    (positive : mantissa ≠ 0) (long : 52 ≤ mantissa.log2)
    (large : -1021 ≤ totalExponent mantissa exponent) :
    IsNormal (roundWithAccuracy Format.binary64 sign mantissa exponent .exact) := by
  obtain ⟨low, high, place⟩ := shiftToTargetExponent_bounds positive long large
  unfold roundWithAccuracy
  generalize shiftToTargetExponent Format.binary64 mantissa exponent .exact = first at *
  obtain ⟨extended, middle⟩ := first
  obtain ⟨above, below⟩ := roundedMantissa_bounds extended
  dsimp only at low high place ⊢
  generalize extended.roundedMantissa = rounded at *
  -- Rounding up may have lengthened the significand, so it is shifted once more.
  have roundedPositive : rounded ≠ 0 := by omega
  have roundedLong : 52 ≤ rounded.log2 := (Nat.le_log2 roundedPositive).mpr (by omega)
  unfold totalExponent at large
  have roundedLarge : -1021 ≤ totalExponent rounded middle := by
    unfold totalExponent
    omega
  obtain ⟨finalLow, finalHigh, finalPlace⟩ :=
    shiftToTargetExponent_bounds roundedPositive roundedLong roundedLarge
  generalize shiftToTargetExponent Format.binary64 rounded middle .exact = second at *
  obtain ⟨last, reached⟩ := second
  dsimp only at finalLow finalHigh finalPlace ⊢
  rw [dif_neg (by omega)]
  refine ⟨(Nat.log2_eq_iff (by omega)).mpr ⟨finalLow, finalHigh⟩, ?_⟩
  omega

/-! ### The exponent field -/

/-- A normal number keeps an exponent field other than zero, since its exponent is above the least
one. -/
theorem unpackExponent_pack {number : UnpackedFloat} (normal : IsNormal number) :
    unpackExponent (UnpackedFloat.pack Format.binary64 number) ≠ 0#_ := by
  cases number with
  | infinity sign =>
    simp only [UnpackedFloat.pack, packedInfinity, unpackExponent_packComponents]
    decide
  | notANumber =>
    simp only [UnpackedFloat.pack, packedNaN, unpackExponent_packComponents]
    decide
  | zero sign => exact normal.elim
  | finite sign mantissa exponent _ =>
    obtain ⟨leading, low⟩ := normal
    have bias : Format.binary64.exponentBias = 1023 := rfl
    have bits : Format.binary64.mantissaBits = 53 := rfl
    simp only [UnpackedFloat.pack, leading, bias, bits]
    split
    · simp only [packedInfinity, unpackExponent_packComponents]
      decide
    · rw [if_pos trivial, unpackExponent_packComponents]
      intro zero
      have field := congrArg BitVec.toNat zero
      simp only [BitVec.toNat_ofNat] at field
      omega

/-- The other way round: a field other than zero is read as a normal number, an infinity or no
number. -/
theorem isNormal_unpack {bits : BitVec Format.binary64.numBits} (field : unpackExponent bits ≠ 0#_) :
    IsNormal (UnpackedFloat.unpack Format.binary64 bits) := by
  unfold UnpackedFloat.unpack
  dsimp only
  split
  · split
    · exact trivial
    · exact trivial
  · have bias : Format.binary64.exponentBias = 1023 := rfl
    have positive : 0 < (unpackExponent bits).toNat := by
      refine Nat.pos_of_ne_zero fun zero => field ?_
      exact BitVec.eq_of_toNat_eq zero
    have value : (1#1 ++ unpackMantissa bits).toNat = 2 ^ 52 + (unpackMantissa bits).toNat := by
      rw [BitVec.toNat_append, ← Nat.shiftLeft_add_eq_or_of_lt (unpackMantissa bits).isLt]
      simp [Nat.shiftLeft_eq]
    have fits : (unpackMantissa bits).toNat < 2 ^ 52 := (unpackMantissa bits).isLt
    refine ⟨?_, ?_⟩
    · rw [value]
      exact (Nat.log2_eq_iff (by omega)).mpr ⟨Nat.le_add_right _ _, by omega⟩
    · rw [bias]
      omega

/-- The exponent field of a double is not zero. -/
def HasExponent (number : Float) : Prop :=
  @unpackExponent Format.binary64 number.toModel.toBits.toBitVec ≠ 0#_

theorem hasExponent_pack {number : UnpackedFloat} (normal : IsNormal number) :
    HasExponent (.ofModel (Float.Model.pack number)) :=
  unpackExponent_pack normal

/-- The sign does not touch the exponent field. -/
theorem HasExponent.neg {number : Float} (present : HasExponent number) :
    HasExponent number.neg := by
  apply hasExponent_pack
  have normal := isNormal_unpack present
  unfold Float.Model.unpack
  cases shape : UnpackedFloat.unpack Format.binary64 number.toModel.toBits.toBitVec with
  | infinity sign => exact trivial
  | notANumber => exact trivial
  | zero sign =>
    rw [shape] at normal
    exact normal
  | finite sign mantissa exponent _ =>
    rw [shape] at normal
    exact normal

/-- A product with one. -/
theorem HasExponent.mul_one {number : Float} (present : HasExponent number) :
    HasExponent (number * Float.ofBits 0x3FF0000000000000) := by
  apply hasExponent_pack
  have one : (Float.ofBits 0x3FF0000000000000).toModel.unpack =
      .finite .positive (2 ^ 52) (-52) (Nat.two_pow_pos 52) := by
    rfl
  have normal := isNormal_unpack present
  rw [one]
  unfold Float.Model.unpack
  cases shape : UnpackedFloat.unpack Format.binary64 number.toModel.toBits.toBitVec with
  | infinity sign => exact trivial
  | notANumber => exact trivial
  | zero sign =>
    rw [shape] at normal
    exact normal
  | finite sign mantissa exponent _ =>
    rw [shape] at normal
    obtain ⟨leading, low⟩ := normal
    have product : (mantissa * 2 ^ 52).log2 = 104 := by
      rw [log2_mul_two_pow (by omega), leading]
    apply isNormal_roundWithAccuracy _ (by omega) (by omega)
    unfold totalExponent
    rw [product]
    omega

/-! ### Integers -/

/-- A positive integer of at most 53 bits is converted without rounding, to a normal double. -/
theorem hasExponent_ofUInt64 {number : UInt64} (positive : number.toNat ≠ 0)
    (small : number.toNat < 2 ^ 53) : HasExponent number.toFloat := by
  apply hasExponent_pack
  have sign : compare (number.toNat : Int) 0 = .gt := by
    rw [Int.compare_eq_gt]
    omega
  have short : number.toNat.log2 < 53 := (Nat.log2_lt positive).mpr small
  have amount : ((0 : Int) - Format.binary64.targetExponent
      (totalExponent number.toNat 0)).toNat = 52 - number.toNat.log2 := by
    rw [targetExponent_eq (by unfold totalExponent; omega)]
    omega
  simp only [UnpackedFloat.ofUInt64, UnpackedFloat.ofNat, UnpackedFloat.ofInt,
    UnpackedFloat.normalize, sign, UnpackedFloat.round, decreaseExponent, Int.toNat_natCast, amount,
    Nat.shiftLeft_eq]
  have leading : (number.toNat * 2 ^ (52 - number.toNat.log2)).log2 = 52 := by
    rw [log2_mul_two_pow positive]
    omega
  refine isNormal_roundWithAccuracy _ ?_ (by omega) ?_
  · exact Nat.mul_ne_zero positive (Nat.ne_of_gt (Nat.two_pow_pos _))
  · unfold totalExponent
    rw [leading]
    omega

/-- Read as a literal without exponent, an integer is rounded once, with 53 bits to spare. -/
theorem ofScientific_zero {number : Nat} (positive : number ≠ 0) :
    UnpackedFloat.ofScientific Format.binary64 number 0 =
      roundWithAccuracy Format.binary64 .positive (number * 2 ^ 53) (-53) .exact := by
  have range : (2 : Int) ^ Format.binary64.exponentBits = 2048 := rfl
  have shifted : number <<< Format.binary64.mantissaBits * 10 ^ Int.toNat 0 = number * 2 ^ 53 := by
    rw [Nat.shiftLeft_eq, Int.toNat_zero, Nat.pow_zero, Nat.mul_one]
    rfl
  unfold UnpackedFloat.ofScientific
  rw [range, dif_neg positive, if_neg (by decide), if_neg (by omega), if_pos (by decide)]
  show roundWithAccuracy Format.binary64 (.positive * .positive)
    (number <<< Format.binary64.mantissaBits * 10 ^ Int.toNat 0)
    (-(Format.binary64.mantissaBits : Int) + 0) .exact = _
  rw [shifted]
  rfl

/-- No positive integer is converted to a zero, however large it is. -/
theorem hasExponent_ofNat {number : Nat} (positive : number ≠ 0) :
    HasExponent (Float.ofNat number) := by
  show HasExponent (Float.ofScientific number false 0)
  unfold Float.ofScientific
  split
  · rename_i small
    have same : number.toUInt64.toNat = number := by
      rw [Nat.toUInt64_eq, UInt64.toNat_ofNat_of_lt']
      exact Nat.lt_trans small.1 (by decide)
    refine HasExponent.mul_one (hasExponent_ofUInt64 ?_ ?_)
    · rwa [same]
    · rw [same]
      exact small.1
  · apply hasExponent_pack
    show IsNormal (UnpackedFloat.ofScientific Format.binary64 number 0)
    rw [ofScientific_zero positive]
    have leading : (number * 2 ^ 53).log2 = number.log2 + 53 := log2_mul_two_pow positive 53
    refine isNormal_roundWithAccuracy _ ?_ (by omega) ?_
    · exact Nat.mul_ne_zero positive (Nat.ne_of_gt (Nat.two_pow_pos 53))
    · unfold totalExponent
      rw [leading]
      omega

theorem hasExponent_ofInt {number : Int} (nonzero : number ≠ 0) :
    HasExponent (Float.ofInt number) := by
  cases number with
  | ofNat size =>
    refine hasExponent_ofNat fun zero => nonzero ?_
    rw [zero]
    rfl
  | negSucc size => exact (hasExponent_ofNat (Nat.succ_ne_zero size)).neg

/-- A double with an exponent has a leading bit, so its significand is no zero. -/
theorem HasExponent.significand_ne_zero {number : Float} (present : HasExponent number)
    {negative : Bool} {significand shift : Nat}
    (reading : Reading.of number = .finite negative significand shift) : significand ≠ 0 := by
  have field : (number.toBits.toNat >>> 52) % 2048 ≠ 0 := by
    intro zero
    refine present (BitVec.eq_of_toNat_eq ?_)
    simp [unpackExponent]
    exact zero
  unfold Reading.of Reading.ofBits at reading
  simp only [field, if_false] at reading
  split at reading
  · split at reading
    · cases reading
    · cases reading
  · simp only [Reading.finite.injEq] at reading
    omega

/-- So it is not in the place of zero when numbers are compared. -/
theorem HasExponent.place_ne_zero {number : Float} (present : HasExponent number) :
    placeOfFloat? number ≠ some (.finite 0) := by
  unfold placeOfFloat?
  split
  · simp
  · simp
  · simp
  · rename_i negative significand shift reading
    have positive : 0 < magnitude significand shift := by
      rw [magnitude, Nat.shiftLeft_eq]
      have front := Nat.pos_of_ne_zero (present.significand_ne_zero reading)
      exact Nat.mul_pos front (Nat.two_pow_pos shift)
    simp only [ne_eq, Option.some.injEq, Place.finite.injEq]
    unfold signed
    split
    · omega
    · omega

/-- A number converts to a zero exactly when it is one. -/
theorem isZero_iff_of_toFloat {number : Number} {converted : Float}
    (conversion : number.toFloat = .ok converted) :
    number.isZero ↔ placeOfFloat? converted = some (.finite 0) := by
  -- Zero has the same place among the numbers as an INT and as a FLOAT.
  have zero : placeOfInt 0 = .finite 0 := by
    rw [placeOfInt, Int.zero_mul]
  cases number with
  | float value =>
    cases conversion
    unfold isZero isEqual
    simp only [place?, zero]
    cases placeOfFloat? converted with
    | none => simp
    | some place => simp
  | int value =>
    have result : converted = Float.ofInt value := by
      unfold toFloat ofInt? at conversion
      dsimp only at conversion
      split at conversion
      · rename_i found shape
        cases conversion
        split at shape
        · exact (Option.some.inj shape).symm
        · cases shape
      · cases conversion
    have place : (int value).isZero ↔ value = 0 := by
      have unit : (unitsInOne : Int) ≠ 0 := by decide +kernel
      simp only [isZero, isEqual, place?, placeOfInt, Int.zero_mul, beq_iff_eq, Place.finite.injEq,
        Int.mul_eq_zero, unit, or_false]
    rw [place, result]
    -- Only zero converts to a float at the place of zero: any other integer has an exponent.
    constructor
    · rintro rfl
      decide +kernel
    · intro atZero
      by_cases nonzero : value = 0
      · exact nonzero
      · exact absurd atZero (hasExponent_ofInt nonzero).place_ne_zero

end LineScript.Number
