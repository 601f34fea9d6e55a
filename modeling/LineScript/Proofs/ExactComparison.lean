/-
Module: LineScript.Proofs.ExactComparison
Purpose: Numbers of both kinds compare as what they are exactly, and equal values form classes.
Trusted boundary: none
Main exports: Exact, Reading.exactValue?, Likeness, ComparesExactly, comparisons_coherent
-/
import Mathlib.Algebra.Order.Field.Rat
import Mathlib.Data.Rat.Cast.Order
import LineScript.Operator

/-!
An integer is itself, and a double that is a number is a multiple of a power of two or one of two
infinities. So both are elements of one linear order, the rational numbers with an infinity at
either end, and the places by which numbers are compared lie in it as the numbers do: nothing is
rounded. Equality reaches further. A truth value equals the text that spells it, but no number, so
every value except a double that is not a number belongs to one class of equal values.
-/

namespace LineScript

/-! ### What numbers are exactly -/

namespace Number

/-- The rational numbers with an infinity at either end. -/
abbrev Exact := WithBot (WithTop ℚ)

/-- The exact value of a double, which has none if it is not a number. -/
def Reading.exactValue? : Reading → Option Exact
  | .notANumber => none
  | .infinite true => some ⊥
  | .infinite false => some ⊤
  | .finite negative significand shift =>
    let size : ℚ := significand * 2 ^ shift / 2 ^ unitsExponent
    some (((if negative then -size else size : ℚ) : WithTop ℚ) : Exact)

/-- The exact value of a number. -/
def exactValue? : Number → Option Exact
  | .int value => some (((value : ℚ) : WithTop ℚ) : Exact)
  | .float value => (Reading.of value).exactValue?

/-- The number is a double that is not a number. -/
def isNotANumber : Number → Bool
  | .int _ => false
  | .float value => Reading.of value == .notANumber

/-- The exact value of the numbers at a place. -/
def Place.exactValue : Place → Exact
  | .minusInfinity => ⊥
  | .finite units => (((units / 2 ^ unitsExponent : ℚ) : WithTop ℚ) : Exact)
  | .plusInfinity => ⊤

/-- The exact value of a number is that of its place. -/
theorem exactValue?_eq (number : Number) :
    number.exactValue? = number.place?.map Place.exactValue := by
  have unit : (2 : ℚ) ^ unitsExponent ≠ 0 := pow_ne_zero _ two_ne_zero
  cases number with
  | int value =>
    have scaled : ((value * (unitsInOne : Int) : Int) : ℚ) / 2 ^ unitsExponent = value := by
      rw [unitsInOne, Nat.shiftLeft_eq, Nat.one_mul]
      push_cast
      exact mul_div_cancel_right₀ _ unit
    simp only [exactValue?, place?, placeOfInt, Option.map_some, Place.exactValue, scaled]
  | float value =>
    simp only [exactValue?, place?, placeOfFloat?]
    cases Reading.of value with
    | notANumber => rfl
    | infinite negative => cases negative <;> rfl
    | finite negative significand shift =>
      cases negative <;>
        simp [Reading.exactValue?, Place.exactValue, signed, magnitude, Nat.shiftLeft_eq, neg_div]

/-- Finite places are ordered as the integers that they count. -/
theorem Place.exactValue_finite_lt (one two : Int) :
    (Place.finite one).exactValue < (Place.finite two).exactValue ↔ one < two := by
  have unit : (0 : ℚ) < 2 ^ unitsExponent := pow_pos two_pos _
  simp only [Place.exactValue, WithBot.coe_lt_coe, WithTop.coe_lt_coe,
    div_lt_div_iff_of_pos_right unit, Int.cast_lt]

/-- A place comes before another just when its exact value is less. -/
theorem Place.before_iff (one two : Place) : one.before two ↔ one.exactValue < two.exactValue := by
  cases one with
  | minusInfinity => cases two <;> simp [Place.before, Place.exactValue]
  | plusInfinity => cases two <;> simp [Place.before, Place.exactValue]
  | finite units =>
    cases two with
    | minusInfinity => simp [Place.before, Place.exactValue]
    | finite others => simp [Place.before, Place.exactValue_finite_lt]
    | plusInfinity =>
      have below : (Place.finite units).exactValue < ⊤ :=
        WithBot.coe_lt_coe.mpr (WithTop.coe_lt_top _)
      simpa [Place.before, Place.exactValue] using below

/-- Different places are exactly different. -/
theorem Place.exactValue_injective : Function.Injective Place.exactValue := by
  intro one two same
  by_contra different
  have apart : one.before two ∨ two.before one := by
    cases one <;> cases two <;> simp_all [Place.before]
  rcases apart with before | before
  · exact absurd same ((Place.before_iff one two).mp before).ne
  · exact absurd same.symm ((Place.before_iff two one).mp before).ne

/-- Every number but NaN has an exact value. -/
theorem exactValue?_isSome_iff (number : Number) :
    number.exactValue?.isSome ↔ number.isNotANumber = false := by
  cases number with
  | int value => simp [exactValue?, isNotANumber]
  | float value =>
    simp only [exactValue?, isNotANumber]
    cases Reading.of value with
    | notANumber => simp [Reading.exactValue?]
    | infinite negative => cases negative <;> simp [Reading.exactValue?]
    | finite negative significand shift => simp [Reading.exactValue?]

/-- Numbers are equal if they are the same exactly. -/
theorem isEqual_iff (left right : Number) :
    left.isEqual right ↔ left.exactValue? = right.exactValue? ∧ left.exactValue?.isSome := by
  rw [exactValue?_eq, exactValue?_eq, isEqual]
  cases left.place? with
  | none => simp
  | some leftPlace =>
    cases right.place? with
    | none => simp
    | some rightPlace => simp [Place.exactValue_injective.eq_iff]

section Comparisons

variable {left right : Number} {one two : Exact} (leftExact : left.exactValue? = some one)
  (rightExact : right.exactValue? = some two)

include leftExact rightExact

/-- The program's order of numbers is the order of exact values, between integers and doubles
too. -/
theorem isLess_iff : left.isLess right ↔ one < two := by
  rw [exactValue?_eq, Option.map_eq_some_iff] at leftExact rightExact
  obtain ⟨leftPlace, leftFound, rfl⟩ := leftExact
  obtain ⟨rightPlace, rightFound, rfl⟩ := rightExact
  rw [isLess, leftFound, rightFound]
  exact Place.before_iff leftPlace rightPlace

/-- Its equality is the equality of exact values. -/
theorem isEqual_iff_eq : left.isEqual right ↔ one = two := by
  simp [isEqual_iff, leftExact, rightExact]

theorem isLessOrEqual_iff : left.isLessOrEqual right ↔ one ≤ two := by
  rw [isLessOrEqual, Bool.or_eq_true, isLess_iff leftExact rightExact,
    isEqual_iff_eq leftExact rightExact, le_iff_lt_or_eq]

end Comparisons

end Number

/-! ### Classes of equal values -/

namespace Value

/-- The value is a double that is not a number. -/
def isNotANumber (value : Value) : Bool :=
  value.number?.any Number.isNotANumber

/-- What equal values have in common. -/
inductive Likeness where
  | null
  | text (content : String)
  | number (exact : Number.Exact)

/-- What a value has in common with those it equals. A truth value has the text that spells it, and
a double that is not a number equals nothing. -/
def likeness? : Value → Option Likeness
  | .null => some .null
  | .bool truth => some (.text (boolText truth))
  | .int value => (Number.int value).exactValue?.map .number
  | .float value => (Number.float value).exactValue?.map .number
  | .text content => some (.text content)

/-- TRUE and FALSE are spelled differently. -/
theorem boolText_inj {one two : Bool} : boolText one = boolText two ↔ one = two := by
  revert one two
  decide

/-- Numbers are alike just when the program finds them equal; NaN is like nothing. -/
theorem number_likeness_eq_iff {left right : Number} :
    (left.exactValue?.map Likeness.number = right.exactValue?.map Likeness.number ∧
      left.exactValue?.isSome) ↔ left.isEqual right := by
  have injective : Function.Injective Likeness.number := fun _ _ same => Likeness.number.inj same
  rw [Number.isEqual_iff, (Option.map_injective injective).eq_iff]

/-- Values are equal if they have the same likeness. -/
theorem isEqual_iff (left right : Value) :
    left.isEqual right ↔ left.likeness? = right.likeness? ∧ left.likeness?.isSome := by
  cases left with
  | null => cases right <;> simp [isEqual, likeness?, number?]
  | bool truth =>
    cases right with
    | text content =>
      simp only [isEqual, likeness?, beq_iff_eq, Option.some.injEq, Likeness.text.injEq,
        Option.isSome_some, and_true]
      exact eq_comm
    | _ => simp [isEqual, likeness?, number?, boolText_inj]
  | int value => cases right <;> simp [isEqual, likeness?, number?, number_likeness_eq_iff]
  | float value => cases right <;> simp [isEqual, likeness?, number?, number_likeness_eq_iff]
  | text content => cases right <;> simp [isEqual, likeness?, number?]

/-- Every value but NaN belongs to some class. -/
theorem likeness?_isSome {value : Value} (measured : value.isNotANumber = false) :
    value.likeness?.isSome := by
  cases value <;> simp_all [likeness?, isNotANumber, number?, Number.exactValue?_isSome_iff]

end Value

/-! ### What the operators find -/

namespace Operator

/-- Whatever token the operator is written as, it gives the truth value for the two values. -/
def Finds (kind : TokenKind) (left right : Value) (truth : Bool) : Prop :=
  ∀ operator : Token, operator.kind = kind →
    binary operator (some left) (some right) = .ok (.bool truth)

/-- The comparison is true of the two values. -/
abbrev Holds (kind : TokenKind) (left right : Value) : Prop :=
  Finds kind left right true

variable {kind : TokenKind} {left right : Value} {truth other : Bool}

/-- An operator finds one truth value. -/
theorem Finds.unique (found : Finds kind left right truth) (again : Finds kind left right other) :
    truth = other := by
  have first := found ⟨kind, "", none, .start⟩ rfl
  rw [again _ rfl] at first
  simpa using first.symm

/-- That an operator holds is told by what it finds. -/
theorem Finds.holds_iff (found : Finds kind left right truth) :
    Holds kind left right ↔ truth := by
  constructor
  · intro holds
    exact found.unique holds
  · rintro rfl
    exact found

theorem finds_equalEqual (left right : Value) :
    Finds .equalEqual left right (left.isEqual right) := by
  intro operator same
  simp [binary, same]

/-- The operator of inequality finds the negation of equality, for values of any kinds. -/
theorem finds_notEqual (left right : Value) :
    Finds .notEqual left right (!left.isEqual right) := by
  intro operator same
  simp [binary, same]

/-- A number that is made a value is a number again. -/
theorem number?_toValue (number : Number) : number.toValue.number? = some number := by
  cases number <;> rfl

section Numbers

variable (left right : Number)

theorem finds_less : Finds .less left.toValue right.toValue (left.isLess right) := by
  intro operator same
  simp [binary, same, number?_toValue, onNumbers]

theorem finds_lessEqual :
    Finds .lessEqual left.toValue right.toValue (left.isLessOrEqual right) := by
  intro operator same
  simp [binary, same, number?_toValue, onNumbers]

theorem finds_greater : Finds .greater left.toValue right.toValue (right.isLess left) := by
  intro operator same
  simp [binary, same, number?_toValue, onNumbers]

theorem finds_greaterEqual :
    Finds .greaterEqual left.toValue right.toValue (right.isLessOrEqual left) := by
  intro operator same
  simp [binary, same, number?_toValue, onNumbers]

/-- Equality of values extends that of numbers. -/
theorem isEqual_toValue : left.toValue.isEqual right.toValue = left.isEqual right := by
  cases left <;> cases right <;> rfl

end Numbers

/-- The six comparisons of two numbers are those of two exact values. -/
structure ComparesExactly (left right : Number) (one two : Number.Exact) : Prop where
  less : Finds .less left.toValue right.toValue (one < two)
  lessEqual : Finds .lessEqual left.toValue right.toValue (one ≤ two)
  equalEqual : Finds .equalEqual left.toValue right.toValue (one = two)
  notEqual : Finds .notEqual left.toValue right.toValue (one ≠ two)
  greater : Finds .greater left.toValue right.toValue (two < one)
  greaterEqual : Finds .greaterEqual left.toValue right.toValue (two ≤ one)

/-- What is found may be told by any statement that decides it. -/
theorem Finds.of_iff {statement : Prop} [Decidable statement] (found : Finds kind left right truth)
    (same : truth ↔ statement) : Finds kind left right (decide statement) := by
  rwa [← decide_eq_decide.mpr same, Bool.decide_coe]

variable {first second third : Number} {one two three : Number.Exact}

/-- The six operators on two numbers with exact values, all at once. -/
theorem comparesExactly (firstExact : first.exactValue? = some one)
    (secondExact : second.exactValue? = some two) : ComparesExactly first second one two := by
  have equal := Number.isEqual_iff_eq firstExact secondExact
  rw [← isEqual_toValue] at equal
  constructor
  · exact (finds_less _ _).of_iff (Number.isLess_iff firstExact secondExact)
  · exact (finds_lessEqual _ _).of_iff (Number.isLessOrEqual_iff firstExact secondExact)
  · exact (finds_equalEqual _ _).of_iff equal
  · exact (finds_notEqual _ _).of_iff (by rw [Bool.not_eq_true', ← Bool.not_eq_true, equal])
  · exact (finds_greater _ _).of_iff (Number.isLess_iff secondExact firstExact)
  · exact (finds_greaterEqual _ _).of_iff (Number.isLessOrEqual_iff secondExact firstExact)

namespace ComparesExactly

variable (compares : ComparesExactly first second one two)

include compares

theorem holds_less_iff : Holds .less first.toValue second.toValue ↔ one < two := by
  simpa using compares.less.holds_iff

theorem holds_equalEqual_iff : Holds .equalEqual first.toValue second.toValue ↔ one = two := by
  simpa using compares.equalEqual.holds_iff

theorem holds_greater_iff : Holds .greater first.toValue second.toValue ↔ two < one := by
  simpa using compares.greater.holds_iff

/-- Of two numbers one is less, or they are equal, and only one of this. -/
theorem existsUnique_kind : ∃! kind, kind ∈ [TokenKind.less, .equalEqual, .greater] ∧
    Holds kind first.toValue second.toValue := by
  have less := compares.holds_less_iff
  have equal := compares.holds_equalEqual_iff
  have greater := compares.holds_greater_iff
  rcases lt_trichotomy one two with before | rfl | behind
  · refine ⟨.less, ⟨by simp, less.mpr before⟩, ?_⟩
    simp [equal, greater, before.ne, before.not_gt]
  · refine ⟨.equalEqual, ⟨by simp, equal.mpr rfl⟩, ?_⟩
    simp [less, greater]
  · refine ⟨.greater, ⟨by simp, greater.mpr behind⟩, ?_⟩
    simp [less, equal, behind.ne', behind.not_gt]

/-- The operator <= holds where < does or == does. -/
theorem holds_lessEqual_iff : Holds .lessEqual first.toValue second.toValue ↔
    Holds .less first.toValue second.toValue ∨ Holds .equalEqual first.toValue second.toValue := by
  rw [compares.holds_less_iff, compares.holds_equalEqual_iff, ← le_iff_lt_or_eq]
  simpa using compares.lessEqual.holds_iff

/-- The operator >= holds where > does or == does. -/
theorem holds_greaterEqual_iff : Holds .greaterEqual first.toValue second.toValue ↔
    Holds .greater first.toValue second.toValue ∨
      Holds .equalEqual first.toValue second.toValue := by
  rw [compares.holds_greater_iff, compares.holds_equalEqual_iff, eq_comm (a := one),
    ← le_iff_lt_or_eq]
  simpa using compares.greaterEqual.holds_iff

end ComparesExactly

/-- Equality is being in one class, so that it is an equivalence on the values that are not NaN. -/
theorem holds_equalEqual_iff_likeness (left right : Value) :
    Holds .equalEqual left right ↔ left.likeness? = right.likeness? ∧ left.likeness?.isSome :=
  (finds_equalEqual left right).holds_iff.trans (Value.isEqual_iff left right)

/-- Values that are not doubles without a value fall into classes of equal values. -/
theorem equalEqual_equivalence :
    Equivalence fun left right : { value : Value // value.isNotANumber = false } =>
      Holds .equalEqual left.1 right.1 := by
  constructor
  · intro value
    rw [holds_equalEqual_iff_likeness]
    exact ⟨rfl, Value.likeness?_isSome value.2⟩
  · intro one two equal
    rw [holds_equalEqual_iff_likeness] at equal ⊢
    exact ⟨equal.1.symm, equal.1 ▸ equal.2⟩
  · intro one two three equal further
    rw [holds_equalEqual_iff_likeness] at equal further ⊢
    exact ⟨equal.1.trans further.1, equal.2⟩

/-- Equality finds a truth value for any two values, and inequality finds the other one. It is an
equivalence on all values but the double that is not a number, and a truth value equals the text
that spells it. All other numbers, of both kinds and of any size, compare as the exact values that
they have: one is less, or they are equal, or the other is less, and only one of this; the two
comparisons that include equality hold when it does or the strict one does; and what is less than a
lesser number is less. -/
theorem comparisons_coherent :
    (∀ left right : Value, ∃ truth,
      Finds .equalEqual left right truth ∧ Finds .notEqual left right !truth) ∧
    (Equivalence fun left right : { value : Value // value.isNotANumber = false } =>
      Holds .equalEqual left.1 right.1) ∧
    (∀ truth, Holds .equalEqual (.bool truth) (.text (boolText truth))) ∧
    ∀ left right : Number, left.isNotANumber = false → right.isNotANumber = false →
      (∃ one two, left.exactValue? = some one ∧ right.exactValue? = some two ∧
        ComparesExactly left right one two) ∧
      (∃! kind, kind ∈ [TokenKind.less, .equalEqual, .greater] ∧
        Holds kind left.toValue right.toValue) ∧
      (Holds .lessEqual left.toValue right.toValue ↔
        Holds .less left.toValue right.toValue ∨ Holds .equalEqual left.toValue right.toValue) ∧
      (Holds .greaterEqual left.toValue right.toValue ↔
        Holds .greater left.toValue right.toValue ∨
          Holds .equalEqual left.toValue right.toValue) ∧
      ∀ last : Number, last.isNotANumber = false → Holds .less left.toValue right.toValue →
        Holds .less right.toValue last.toValue → Holds .less left.toValue last.toValue := by
  refine ⟨?_, equalEqual_equivalence, ?_, ?_⟩
  · intro left right
    exact ⟨_, finds_equalEqual left right, finds_notEqual left right⟩
  · intro truth
    rw [holds_equalEqual_iff_likeness]
    exact ⟨rfl, rfl⟩
  -- Away from NaN, every number has an exact value, and the relations are those of the values.
  · intro left right leftMeasured rightMeasured
    obtain ⟨one, leftExact⟩ :=
      Option.isSome_iff_exists.mp (left.exactValue?_isSome_iff.mpr leftMeasured)
    obtain ⟨two, rightExact⟩ :=
      Option.isSome_iff_exists.mp (right.exactValue?_isSome_iff.mpr rightMeasured)
    have compares := comparesExactly leftExact rightExact
    refine ⟨⟨one, two, leftExact, rightExact, compares⟩, compares.existsUnique_kind,
      compares.holds_lessEqual_iff, compares.holds_greaterEqual_iff, ?_⟩
    intro last lastMeasured before further
    obtain ⟨three, lastExact⟩ :=
      Option.isSome_iff_exists.mp (last.exactValue?_isSome_iff.mpr lastMeasured)
    rw [(comparesExactly rightExact lastExact).holds_less_iff] at further
    rw [compares.holds_less_iff] at before
    rw [(comparesExactly leftExact lastExact).holds_less_iff]
    exact before.trans further

/-- The integer behind two to the power of 53 becomes that power when it is converted to a double.
It is compared without being converted, so it lies between this double and the infinite one. -/
theorem unrounded_integer_coherent :
    let whole := Number.float (.ofBits 0x4340000000000000)
    let next := Number.int (2 ^ 53 + 1)
    let infinity := Number.float (.ofBits 0x7ff0000000000000)
    whole.isNotANumber = false ∧ next.isNotANumber = false ∧ infinity.isNotANumber = false ∧
      (∃! kind, kind ∈ [TokenKind.less, .equalEqual, .greater] ∧
        Holds kind whole.toValue next.toValue) ∧
      Holds .less whole.toValue infinity.toValue := by
  intro whole next infinity
  have wholeMeasured : whole.isNotANumber = false := by decide +kernel
  have nextMeasured : next.isNotANumber = false := by decide +kernel
  have infinityMeasured : infinity.isNotANumber = false := by decide +kernel
  have before : Holds .less whole.toValue next.toValue :=
    (finds_less whole next).holds_iff.mpr (by decide +kernel)
  have further : Holds .less next.toValue infinity.toValue :=
    (finds_less next infinity).holds_iff.mpr (by decide +kernel)
  obtain ⟨-, -, -, numbers⟩ := comparisons_coherent
  obtain ⟨-, unique, -, -, transitive⟩ := numbers whole next wholeMeasured nextMeasured
  exact ⟨wholeMeasured, nextMeasured, infinityMeasured, unique,
    transitive infinity infinityMeasured before further⟩

end Operator

end LineScript
