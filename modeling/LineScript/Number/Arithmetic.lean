/-
Module: LineScript.Number.Arithmetic
Purpose: Arithmetic and comparison of integers and doubles.
Trusted boundary: sums, differences, products and quotients of doubles are those of the type Float.
Main exports: Number, Fault, Number.combine, Number.isLess, Number.isEqual, truncatedQuotient,
  Number.divide, Number.modulo
-/
import LineScript.Number.Double

/-!
Two integers are combined exactly. As soon as one operand is a double, the other is converted to
the nearest double first, which fails for an integer beyond the doubles. Comparison converts
nothing: numbers of both kinds have a place on one line and compare as their places do.
-/

namespace LineScript

/-- A number of either kind. -/
inductive Number where
  | int (value : Int)
  | float (value : Float)
  deriving DecidableEq, Repr

namespace Number

/-- Why an operation on two numbers has no result. -/
inductive Fault where
  | divisionByZero
  /-- An integer operand has no double near it. -/
  | tooLargeForFloat
  /-- The remainder of an infinity was asked for. -/
  | infiniteDividend
  deriving DecidableEq, Repr, Inhabited

/-- A number as a double. -/
def toFloat : Number → Except Fault Float
  | .int value =>
    match ofInt? value with
    | some converted => .ok converted
    | none => .error .tooLargeForFloat
  | .float value => .ok value

/-- Combines two integers as integers and every other pair as doubles. -/
def combine (onInts : Int → Int → Int) (onFloats : Float → Float → Float) :
    Number → Number → Except Fault Number
  | .int left, .int right => .ok (.int (onInts left right))
  | left, right => do
    let leftFloat ← left.toFloat
    let rightFloat ← right.toFloat
    return .float (onFloats leftFloat rightFloat)

/-- The place of a number on the line of all numbers. -/
def place? : Number → Option Place
  | .int value => some (placeOfInt value)
  | .float value => placeOfFloat? value

/-- Both numbers have a place, and the first lies strictly before the second. -/
def isLess (left right : Number) : Bool :=
  match left.place?, right.place? with
  | some one, some two => one.before two
  | _, _ => false

/-- Both numbers have the same place. -/
def isEqual (left right : Number) : Bool :=
  match left.place?, right.place? with
  | some one, some two => one == two
  | _, _ => false

/-- The first number lies before the second or at its place. -/
def isLessOrEqual (left right : Number) : Bool :=
  left.isLess right || left.isEqual right

/-- A zero of either kind and sign. -/
def isZero (number : Number) : Bool :=
  number.isEqual (.int 0)

/-- The sum of two numbers. -/
def add : Number → Number → Except Fault Number :=
  combine (· + ·) (· + ·)

/-- The difference of two numbers. -/
def subtract : Number → Number → Except Fault Number :=
  combine (· - ·) (· - ·)

/-- The product of two numbers. -/
def multiply : Number → Number → Except Fault Number :=
  combine (· * ·) (· * ·)

/-- The quotient of two integers, cut off toward zero: the quotient of their magnitudes, negative if
their signs differ. -/
def truncatedQuotient (dividend divisor : Int) : Int :=
  signed (decide (dividend < 0) != decide (divisor < 0)) (dividend.natAbs / divisor.natAbs)

/-- What the quotient of two integers leaves of the first, which is of the sign of the first. -/
def truncatedRemainder (dividend divisor : Int) : Int :=
  dividend - divisor * truncatedQuotient dividend divisor

/-- The quotient of two numbers; of two integers it is cut off toward zero. -/
def divide (left right : Number) : Except Fault Number :=
  if right.isZero then .error .divisionByZero
  else combine truncatedQuotient (· / ·) left right

/-- The remainder of doubles, which an infinite dividend has only if the divisor is not a number. -/
def floatRemainder (dividend divisor : Float) : Except Fault Number :=
  match Reading.of dividend, Reading.of divisor with
  | .infinite _, .notANumber => .ok (.float notANumber)
  | .infinite _, _ => .error .infiniteDividend
  | _, _ => .ok (.float (remainder dividend divisor))

/-- The remainder of two numbers, of the sign of the dividend. -/
def modulo (left right : Number) : Except Fault Number :=
  if right.isZero then .error .divisionByZero
  else
    match left, right with
    | .int dividend, .int divisor => .ok (.int (truncatedRemainder dividend divisor))
    | _, _ => do
      let dividend ← left.toFloat
      let divisor ← right.toFloat
      floatRemainder dividend divisor

/-- The number of opposite sign. -/
def negate : Number → Number
  | .int value => .int (-value)
  | .float value => .float (-value)

end Number

end LineScript
