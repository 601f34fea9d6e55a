/-
Module: LineScript.Proofs.OperatorBreakdown
Purpose: The operands and operators at which an operation breaks down.
Trusted boundary: none
Main exports: IsUndefinedRemainder, binary_eq_breakdown, unary_ne_breakdown
-/
import LineScript.Operator
import LineScript.Proofs.Action
import LineScript.Proofs.IntegerConversion

/-!
Only a remainder can break down, and only when its left operand is infinite: division by zero is a
runtime error, an integer without a double near it is a runtime error, and a divisor that is not a
number makes the remainder not a number. The other breakdowns are those of operators that are not
operators of the language.
-/

namespace LineScript

namespace Number

/-- Converting an integer overflows or not; it never divides. -/
theorem toFloat_ne_infiniteDividend (number : Number) : number.toFloat ≠ .error .infiniteDividend := by
  unfold toFloat
  split
  · split <;> simp
  · simp

/-- An integer never converts to an infinity. -/
theorem reading_of_int {value : Int} {converted : Float}
    (conversion : (int value).toFloat = .ok converted) (negative : Bool) :
    Reading.of converted ≠ .infinite negative := by
  unfold toFloat ofInt? isFinite at conversion
  dsimp only at conversion
  split at conversion
  · rename_i found shape
    cases conversion
    intro infinite
    split at shape
    · rename_i finite
      cases shape
      rw [infinite] at finite
      cases finite
    · cases shape
  · cases conversion

theorem combine_ne_infiniteDividend (onInts : Int → Int → Int) (onFloats : Float → Float → Float)
    (left right : Number) : combine onInts onFloats left right ≠ .error .infiniteDividend := by
  unfold combine
  split
  · simp
  · intro failed
    rcases Action.except_bind_eq_error.mp failed with first | ⟨_, _, second⟩
    · exact toFloat_ne_infiniteDividend left first
    · rcases Action.except_bind_eq_error.mp second with conversion | ⟨_, _, third⟩
      · exact toFloat_ne_infiniteDividend right conversion
      · cases third

/-- The remainder of doubles is undefined just for an infinite dividend, unless the divisor is no
number. -/
theorem floatRemainder_eq_error {dividend divisor : Float} {fault : Fault} :
    floatRemainder dividend divisor = .error fault ↔
      fault = .infiniteDividend ∧ (∃ negative, Reading.of dividend = .infinite negative) ∧
        Reading.of divisor ≠ .notANumber := by
  unfold floatRemainder
  cases Reading.of dividend <;> cases Reading.of divisor <;> simp [eq_comm]

/-- The remainder of two numbers that doubles do not have: of an infinity by something that is not
zero as a double. -/
def IsUndefinedRemainder (left right : Number) : Prop :=
  ∃ dividend negative divisor, left = .float dividend ∧
    Reading.of dividend = .infinite negative ∧ right.toFloat = .ok divisor ∧
    Reading.of divisor ≠ .notANumber ∧ placeOfFloat? divisor ≠ some (.finite 0)

/-- For numbers of either kind the dividend is infinite just when it is a double that is. -/
theorem modulo_eq_infiniteDividend {left right : Number} :
    left.modulo right = .error .infiniteDividend ↔ IsUndefinedRemainder left right := by
  constructor
  · intro failed
    unfold modulo at failed
    split at failed
    · cases failed
    · rename_i nonzero
      split at failed
      · cases failed
      · rcases Action.except_bind_eq_error.mp failed with first | ⟨dividend, leftConversion, second⟩
        · exact absurd first (toFloat_ne_infiniteDividend left)
        · rcases Action.except_bind_eq_error.mp second with first | ⟨divisor, rightConversion, third⟩
          · exact absurd first (toFloat_ne_infiniteDividend right)
          · obtain ⟨_, ⟨negative, infinite⟩, present⟩ := floatRemainder_eq_error.mp third
            cases left with
            | int value => exact absurd infinite (reading_of_int leftConversion negative)
            | float value =>
              cases leftConversion
              refine ⟨_, negative, divisor, rfl, infinite, rightConversion, present, ?_⟩
              exact fun zero => nonzero ((isZero_iff_of_toFloat rightConversion).mpr zero)
  · rintro ⟨dividend, negative, divisor, rfl, infinite, conversion, present, away⟩
    have nonzero : ¬ right.isZero := fun zero =>
      away ((isZero_iff_of_toFloat conversion).mp zero)
    unfold modulo
    rw [if_neg nonzero]
    refine Action.except_bind_eq_error.mpr (.inr ⟨dividend, rfl, ?_⟩)
    refine Action.except_bind_eq_error.mpr (.inr ⟨divisor, conversion, ?_⟩)
    exact floatRemainder_eq_error.mpr ⟨rfl, ⟨negative, infinite⟩, present⟩

end Number

namespace Operator

/-- The operators between two numbers. -/
def numericKinds : List TokenKind :=
  [.plus, .minus, .star, .slash, .modulo, .greater, .greaterEqual, .less, .lessEqual]

/-- The operators between two operands. -/
def infixKinds : List TokenKind :=
  numericKinds ++ [.concat, .equalEqual, .notEqual]

/-- The operators in front of an operand. -/
def prefixKinds : List TokenKind := [.notWord, .minus, .plus]

/-- Only that remainder makes the arithmetic of an operator break down. -/
theorem numberResult_eq_breakdown {operator : Token} {result : Except Number.Fault Number}
    {cause : Breakdown} (failed : numberResult operator result = .error (.breakdown cause)) :
    cause = .infiniteDividend ∧ result = .error .infiniteDividend := by
  unfold numberResult at failed
  split at failed
  · cases failed
  · rename_i fault
    cases fault with
    | divisionByZero => cases failed
    | tooLargeForFloat => cases failed
    | infiniteDividend =>
      cases failed
      exact ⟨rfl, rfl⟩

theorem divide_ne_infiniteDividend (left right : Number) :
    left.divide right ≠ .error .infiniteDividend := by
  unfold Number.divide
  split
  · simp
  · exact Number.combine_ne_infiniteDividend _ _ left right

/-- An operator between numbers breaks down only as a remainder. -/
theorem onNumbers_eq_breakdown {operator : Token} {left right : Number} {cause : Breakdown}
    (listed : operator.kind ∈ numericKinds)
    (failed : onNumbers operator left right = .error (.breakdown cause)) :
    operator.kind = .modulo ∧ cause = .infiniteDividend ∧
      Number.IsUndefinedRemainder left right := by
  unfold onNumbers at failed
  split at failed
  case h_1 =>
    exact absurd (numberResult_eq_breakdown failed).2
      (Number.combine_ne_infiniteDividend _ _ left right)
  case h_2 =>
    exact absurd (numberResult_eq_breakdown failed).2
      (Number.combine_ne_infiniteDividend _ _ left right)
  case h_3 =>
    exact absurd (numberResult_eq_breakdown failed).2
      (Number.combine_ne_infiniteDividend _ _ left right)
  case h_4 =>
    exact absurd (numberResult_eq_breakdown failed).2 (divide_ne_infiniteDividend left right)
  case h_5 kind =>
    obtain ⟨same, undefined⟩ := numberResult_eq_breakdown failed
    exact ⟨kind, same, Number.modulo_eq_infiniteDividend.mp undefined⟩
  case h_10 =>
    simp_all [numericKinds]
  all_goals cases failed

/-- Printing a value never breaks an operator down. -/
theorem printed_ne_breakdown {token : Option Token} {content : Content}
    {cause : Breakdown} : printed token content ≠ .error (.breakdown cause) := by
  unfold printed
  split <;> simp

/-- An operator between two values breaks down only as a remainder of numbers. -/
theorem binary_eq_breakdown {operator : Token} {left right : Value} {cause : Breakdown}
    (listed : operator.kind ∈ infixKinds)
    (failed : binary operator (some left) (some right) = .error (.breakdown cause)) :
    operator.kind = .modulo ∧ cause = .infiniteDividend ∧
      ∃ leftNumber rightNumber, left.number? = some leftNumber ∧
        right.number? = some rightNumber ∧
        Number.IsUndefinedRemainder leftNumber rightNumber := by
  unfold binary at failed
  split at failed
  · rcases Action.except_bind_eq_error.mp failed with first | ⟨_, _, second⟩
    · exact absurd first printed_ne_breakdown
    · rcases Action.except_bind_eq_error.mp second with first | ⟨_, _, third⟩
      · exact absurd first printed_ne_breakdown
      · cases third
  · cases failed
  · cases failed
  · rename_i noConcat noEqual noUnequal
    split at failed
    · rename_i leftNumber rightNumber leftIs rightIs
      have numeric : operator.kind ∈ numericKinds := by
        rcases List.mem_append.mp listed with numeric | other
        · exact numeric
        · simp only [List.mem_cons, List.not_mem_nil, or_false] at other
          rcases other with concat | equal | unequal
          · exact absurd concat noConcat
          · exact absurd equal noEqual
          · exact absurd unequal noUnequal
      obtain ⟨remainder, same, undefined⟩ := onNumbers_eq_breakdown numeric failed
      exact ⟨remainder, same, leftNumber, rightNumber, leftIs, rightIs, undefined⟩
    · cases failed

theorem truth_ne_breakdown {operator : Token} {operand : Content} {cause : Breakdown} :
    truth operator operand ≠ .error (.breakdown cause) := by
  unfold truth
  split <;> simp

theorem number_ne_breakdown {operator : Token} {operand : Content} {cause : Breakdown} :
    number operator operand ≠ .error (.breakdown cause) := by
  unfold number
  split <;> simp

/-- An operator in front of its operand never breaks down. -/
theorem unary_ne_breakdown {operator : Token} {operand : Content} {cause : Breakdown}
    (listed : operator.kind ∈ prefixKinds) :
    unary operator operand ≠ .error (.breakdown cause) := by
  intro failed
  unfold unary at failed
  split at failed
  case h_1 =>
    rcases Action.except_bind_eq_error.mp failed with first | ⟨_, _, second⟩
    · exact truth_ne_breakdown first
    · cases second
  case h_2 | h_3 =>
    rcases Action.except_bind_eq_error.mp failed with first | ⟨_, _, second⟩
    · exact number_ne_breakdown first
    · cases second
  case h_4 => simp_all [prefixKinds]

end Operator

end LineScript
