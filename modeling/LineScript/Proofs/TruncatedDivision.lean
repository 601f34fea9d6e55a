/-
Module: LineScript.Proofs.TruncatedDivision
Purpose: Integers are divided as the quotient cut off toward zero requires, whatever their size.
Trusted boundary: none
Main exports: Truncated, Truncated.unique, towardZero, integer_division_truncates
-/
import Mathlib.Data.Rat.Floor
import LineScript.Expr.Eval
import LineScript.Proofs.Action
import LineScript.Proofs.ExactComparison

/-!
Two integers are divided by dividing their magnitudes, and the quotient is negative if their signs
differ. What it leaves of the dividend is then, up to the sign of the dividend, what the magnitudes
leave. The conditions of a truncated division do not say how it is done. They have one solution for
every divisor but zero, and its quotient is the exact one rounded toward zero.
-/

namespace LineScript

namespace Number

/-! ### What a truncated division is -/

/-- Quotient and remainder give the dividend back. The remainder is smaller than the divisor, and of
the sign of the dividend unless there is none. -/
structure Truncated (dividend divisor quotient remainder : Int) : Prop where
  restores : dividend = divisor * quotient + remainder
  smaller : |remainder| < |divisor|
  signed : remainder = 0 ∨ remainder.sign = dividend.sign

/-- A rational number rounded toward zero. -/
def towardZero (exact : ℚ) : Int :=
  if 0 ≤ exact then ⌊exact⌋ else ⌈exact⌉

namespace Truncated

variable {dividend divisor quotient remainder : Int}

theorem remainder_nonneg (truncated : Truncated dividend divisor quotient remainder)
    (nonneg : 0 ≤ dividend) : 0 ≤ remainder := by
  rcases truncated.signed with none | same
  · exact none.ge
  · rw [← Int.sign_nonneg_iff, same]
    exact Int.sign_nonneg_iff.mpr nonneg

theorem remainder_nonpos (truncated : Truncated dividend divisor quotient remainder)
    (nonpos : dividend ≤ 0) : remainder ≤ 0 := by
  rcases truncated.signed with none | same
  · exact none.le
  · rw [← Int.sign_nonpos_iff, same]
    exact Int.sign_nonpos_iff.mpr nonpos

/-- Two remainders lie on the same side of zero, so they differ by less than the divisor. -/
theorem remainder_sub_lt {other otherRemainder : Int}
    (truncated : Truncated dividend divisor quotient remainder)
    (again : Truncated dividend divisor other otherRemainder) :
    |remainder - otherRemainder| < |divisor| := by
  have first := truncated.smaller
  have second := again.smaller
  rcases le_total 0 dividend with nonneg | nonpos
  · have := truncated.remainder_nonneg nonneg
    have := again.remainder_nonneg nonneg
    rw [abs_lt] at first second ⊢
    constructor <;> omega
  · have := truncated.remainder_nonpos nonpos
    have := again.remainder_nonpos nonpos
    rw [abs_lt] at first second ⊢
    constructor <;> omega

/-- There is one truncated division at most. -/
theorem unique {other otherRemainder : Int}
    (truncated : Truncated dividend divisor quotient remainder)
    (again : Truncated dividend divisor other otherRemainder) :
    other = quotient ∧ otherRemainder = remainder := by
  have multiple : remainder - otherRemainder = divisor * (other - quotient) := by
    rw [mul_sub]
    linarith only [truncated.restores, again.restores]
  have near := truncated.remainder_sub_lt again
  have divides : |divisor| ∣ remainder - otherRemainder :=
    (abs_dvd _ _).mpr (multiple ▸ dvd_mul_right divisor _)
  have same := Int.eq_zero_of_abs_lt_dvd divides near
  have nonzero : divisor ≠ 0 := by
    rintro rfl
    exact absurd truncated.smaller (not_lt.mpr (abs_nonneg remainder))
  rw [same, zero_eq_mul, or_iff_right nonzero] at multiple
  omega

/-- The quotient is the exact one, rounded toward zero. -/
theorem quotient_eq (truncated : Truncated dividend divisor quotient remainder) :
    quotient = towardZero (dividend / divisor) := by
  have nonzero : divisor ≠ 0 := by
    rintro rfl
    exact absurd truncated.smaller (not_lt.mpr (abs_nonneg remainder))
  -- Divided by the divisor, the identity tells how far the quotient is from the exact one.
  have castNonzero : (divisor : ℚ) ≠ 0 := Int.cast_ne_zero.mpr nonzero
  have exact : (dividend / divisor : ℚ) = quotient + remainder / divisor := by
    rw [div_eq_iff castNonzero, add_mul, div_mul_cancel₀ _ castNonzero, mul_comm]
    exact_mod_cast truncated.restores
  have small : |(remainder / divisor : ℚ)| < 1 := by
    rw [abs_div, div_lt_one (abs_pos.mpr castNonzero)]
    exact_mod_cast truncated.smaller
  rw [abs_lt] at small
  unfold towardZero
  split
  · rename_i nonneg
    -- The remainder is on the same side of zero as the dividend, so the exact quotient lies above.
    have above : 0 ≤ (remainder / divisor : ℚ) := by
      rw [div_nonneg_iff] at nonneg ⊢
      norm_cast at nonneg ⊢
      exact nonneg.imp (And.imp_left truncated.remainder_nonneg)
        (And.imp_left truncated.remainder_nonpos)
    rw [eq_comm, Int.floor_eq_iff, exact]
    constructor <;> linarith
  · rename_i negative
    have below : (remainder / divisor : ℚ) ≤ 0 := by
      rw [not_le] at negative
      have nonpos := negative.le
      rw [div_nonpos_iff] at nonpos ⊢
      norm_cast at nonpos ⊢
      exact nonpos.imp (And.imp_left truncated.remainder_nonneg)
        (And.imp_left truncated.remainder_nonpos)
    rw [eq_comm, Int.ceil_eq_iff, exact]
    constructor <;> linarith

end Truncated

/-! ### The quotient and the remainder of two integers -/

/-- The multiple of the divisor that the quotient stands for: that of the magnitudes, with the sign
of the dividend. -/
theorem mul_truncatedQuotient (dividend divisor : Int) :
    divisor * truncatedQuotient dividend divisor =
      signed (dividend < 0) (divisor.natAbs * (dividend.natAbs / divisor.natAbs)) := by
  unfold truncatedQuotient signed
  rw [Nat.cast_mul]
  rcases lt_or_ge divisor 0 with negative | nonneg
  · rw [Int.ofNat_natAbs_of_nonpos negative.le]
    by_cases below : dividend < 0 <;> simp [below, negative]
  · rw [Int.natAbs_of_nonneg nonneg]
    by_cases below : dividend < 0 <;> simp [below, nonneg.not_gt]

/-- What is left of the dividend is what the magnitudes leave, with the sign of the dividend. -/
theorem truncatedRemainder_eq (dividend divisor : Int) :
    truncatedRemainder dividend divisor =
      signed (dividend < 0) (dividend.natAbs % divisor.natAbs) := by
  have whole := Nat.div_add_mod dividend.natAbs divisor.natAbs
  rw [truncatedRemainder, mul_truncatedQuotient]
  by_cases below : dividend < 0
  · simp only [signed, below, decide_true, if_true]
    omega
  · simp only [signed, below, decide_false, Bool.false_eq_true, if_false]
    omega

theorem natAbs_signed (negative : Bool) (size : Nat) : (signed negative size).natAbs = size := by
  cases negative <;> simp [signed]

theorem sign_signed (negative : Bool) {size : Nat} (positive : 0 < size) :
    (signed negative size).sign = if negative then -1 else 1 := by
  have above : (0 : Int) < size := Nat.cast_pos.mpr positive
  cases negative with
  | false => exact Int.sign_eq_one_of_pos above
  | true => exact Int.sign_eq_neg_one_of_neg (Int.neg_neg_of_pos above)

/-- Division by any integer but zero is truncated division. -/
theorem truncated_division (dividend : Int) {divisor : Int} (nonzero : divisor ≠ 0) :
    Truncated dividend divisor (truncatedQuotient dividend divisor)
      (truncatedRemainder dividend divisor) where
  restores := (add_sub_cancel _ dividend).symm
  smaller := by
    rw [truncatedRemainder_eq, Int.abs_eq_natAbs, Int.abs_eq_natAbs, natAbs_signed, Nat.cast_lt]
    exact Nat.mod_lt dividend.natAbs (Int.natAbs_pos.mpr nonzero)
  signed := by
    rw [truncatedRemainder_eq]
    rcases Nat.eq_zero_or_pos (dividend.natAbs % divisor.natAbs) with none | some
    · left
      simp [none, signed]
    · right
      have nonzero : dividend ≠ 0 := by
        rintro rfl
        simp at some
      rw [sign_signed _ some]
      rcases lt_or_gt_of_ne nonzero with negative | positive
      · simp [Int.sign_eq_neg_one_of_neg negative, negative]
      · simp [Int.sign_eq_one_of_pos positive, positive.le.not_gt]

theorem isZero_int (value : Int) : (Number.int value).isZero ↔ value = 0 := by
  rw [isZero, isEqual_iff]
  simp [exactValue?]

end Number

/-! ### Division in expressions -/

open Number

namespace Operator

variable {operator : Token} (dividend divisor : Int)

theorem binary_slash (slash : operator.kind = .slash) :
    binary operator (some (.int dividend)) (some (.int divisor)) =
      if divisor = 0 then .error (.error ⟨.divisionByZero, some operator⟩)
      else .ok (.int (truncatedQuotient dividend divisor)) := by
  have applied : binary operator (some (.int dividend)) (some (.int divisor)) =
      numberResult operator (divide (.int dividend) (.int divisor)) := by
    simp [binary, onNumbers, slash, Value.number?]
  rw [applied, divide]
  by_cases zero : divisor = 0
  · rw [if_pos ((isZero_int divisor).mpr zero), if_pos zero]
    rfl
  · rw [if_neg fun isZero => zero ((isZero_int divisor).mp isZero), if_neg zero]
    rfl

theorem binary_modulo (percent : operator.kind = .modulo) :
    binary operator (some (.int dividend)) (some (.int divisor)) =
      if divisor = 0 then .error (.error ⟨.divisionByZero, some operator⟩)
      else .ok (.int (truncatedRemainder dividend divisor)) := by
  have applied : binary operator (some (.int dividend)) (some (.int divisor)) =
      numberResult operator (modulo (.int dividend) (.int divisor)) := by
    simp [binary, onNumbers, percent, Value.number?]
  rw [applied, modulo]
  by_cases zero : divisor = 0
  · rw [if_pos ((isZero_int divisor).mpr zero), if_pos zero]
    rfl
  · rw [if_neg fun isZero => zero ((isZero_int divisor).mp isZero), if_neg zero]
    rfl

end Operator

namespace Expr

theorem eval_binary {left right : Expr} (operator : Token) {start middle reached : Machine}
    {first second : Value} (leftEnds : left.eval start = .ok first middle)
    (rightEnds : right.eval middle = .ok second reached) :
    (Expr.binary left operator right).eval start =
      Run.ofExcept (Operator.binary operator (some first) (some second)) reached := by
  rw [eval, Action.bind_of_ok leftEnds, Action.bind_of_ok rightEnds]

/-- Whatever integers two expressions find, of any size, dividing them and taking the remainder are
errors exactly if the second is zero, each reported at its operator. Otherwise both find an integer,
and these are the one solution of the conditions of a truncated division; so the quotient is the
exact one rounded toward zero. -/
theorem integer_division_truncates {left right : Expr} {divide modulo : Token}
    (slash : divide.kind = .slash) (percent : modulo.kind = .modulo)
    {start middle reached : Machine} {dividend divisor : Int}
    (leftEnds : left.eval start = .ok (.int dividend) middle)
    (rightEnds : right.eval middle = .ok (.int divisor) reached) :
    ((Expr.binary left divide right).eval start =
        .error (.error ⟨.divisionByZero, some divide⟩) reached ↔ divisor = 0) ∧
      ((Expr.binary left modulo right).eval start =
        .error (.error ⟨.divisionByZero, some modulo⟩) reached ↔ divisor = 0) ∧
      (divisor ≠ 0 → ∃ quotient remainder,
        (Expr.binary left divide right).eval start = .ok (.int quotient) reached ∧
        (Expr.binary left modulo right).eval start = .ok (.int remainder) reached ∧
        Truncated dividend divisor quotient remainder ∧
        (∀ other otherRemainder, Truncated dividend divisor other otherRemainder →
          other = quotient ∧ otherRemainder = remainder) ∧
        quotient = towardZero (dividend / divisor)) := by
  rw [eval_binary divide leftEnds rightEnds, eval_binary modulo leftEnds rightEnds,
    Operator.binary_slash dividend divisor slash, Operator.binary_modulo dividend divisor percent]
  by_cases zero : divisor = 0
  · rw [if_pos zero, if_pos zero]
    exact ⟨iff_of_true rfl zero, iff_of_true rfl zero, fun nonzero => absurd zero nonzero⟩
  · rw [if_neg zero, if_neg zero]
    have truncated := truncated_division dividend zero
    refine ⟨iff_of_false nofun zero, iff_of_false nofun zero, fun _ => ?_⟩
    exact ⟨_, _, rfl, rfl, truncated, fun _ _ => truncated.unique, truncated.quotient_eq⟩

/-- The quotient of minus seven and two is minus three, not the minus four below the exact one, and
minus one is left. -/
theorem minusSeven_by_two :
    let divide : Token := ⟨.slash, "/", none, .start⟩
    let modulo : Token := ⟨.modulo, "%", none, .start⟩
    let machine := Machine.start ⟨[], false⟩
    let minusSeven := Expr.literal (.int (-7))
    let two := Expr.literal (.int 2)
    minusSeven.eval machine = .ok (.int (-7)) machine ∧
      two.eval machine = .ok (.int 2) machine ∧
      (Expr.binary minusSeven divide two).eval machine = .ok (.int (-3)) machine ∧
      (Expr.binary minusSeven modulo two).eval machine = .ok (.int (-1)) machine := by
  intro divide modulo machine minusSeven two
  have slash : divide.kind = .slash := rfl
  have percent : modulo.kind = .modulo := rfl
  have leftEnds : minusSeven.eval machine = .ok (.int (-7)) machine := rfl
  have rightEnds : two.eval machine = .ok (.int 2) machine := rfl
  obtain ⟨-, -, divided⟩ := integer_division_truncates slash percent leftEnds rightEnds
  obtain ⟨quotient, remainder, quotientFound, remainderFound, -, unique, -⟩ := divided (by decide)
  have truncated : Truncated (-7) 2 (-3) (-1) := ⟨by decide, by decide, by decide⟩
  obtain ⟨rfl, rfl⟩ := unique _ _ truncated
  exact ⟨leftEnds, rightEnds, quotientFound, remainderFound⟩

end Expr

end LineScript
