/-
Module: LineScript.Operator
Purpose: What the operators of the language do to values.
Trusted boundary: none
Main exports: Operator.printed, Operator.binary, Operator.unary
-/
import LineScript.Machine

/-!
`+ - * / %` and the comparisons take two numbers, `==` and `<>` any two contents, and `&` joins the
texts of any two contents. The connectives and `NOT` take truth values only: nothing else counts as
true or false.
-/

namespace LineScript.Operator

/-- The text of a content, which must not have too many digits for print. -/
def printed (token : Option Token) (content : Content) : Except Stop String :=
  match Content.display? content with
  | some text => .ok text
  | none => .error (.error ⟨.tooLargeToPrint, token⟩)

/-- How a program stops when an operation on numbers has no result. -/
def stopOfFault (operator : Token) : Number.Fault → Stop
  | .divisionByZero => .error ⟨.divisionByZero, some operator⟩
  | .tooLargeForFloat => .error ⟨.tooLargeForFloat, some operator⟩
  | .infiniteDividend => .breakdown .infiniteDividend

/-- The value of an operation on numbers. -/
def numberResult (operator : Token) (result : Except Number.Fault Number) : Except Stop Value :=
  match result with
  | .ok number => .ok number.toValue
  | .error fault => .error (stopOfFault operator fault)

/-- An operator applied to two numbers. -/
def onNumbers (operator : Token) (left right : Number) : Except Stop Value :=
  match operator.kind with
  | .plus => numberResult operator (left.add right)
  | .minus => numberResult operator (left.subtract right)
  | .star => numberResult operator (left.multiply right)
  | .slash => numberResult operator (left.divide right)
  | .modulo => numberResult operator (left.modulo right)
  | .greater => .ok (.bool (right.isLess left))
  | .greaterEqual => .ok (.bool (right.isLessOrEqual left))
  | .less => .ok (.bool (left.isLess right))
  | .lessEqual => .ok (.bool (left.isLessOrEqual right))
  | _ => .error (.breakdown (.unknownBinary operator.lexeme))

/-- An operator between two operands. -/
def binary (operator : Token) (left right : Content) : Except Stop Value :=
  match operator.kind with
  | .concat => do
    let leftText ← printed (some operator) left
    let rightText ← printed (some operator) right
    return .text (leftText ++ rightText)
  | .equalEqual => .ok (.bool (Content.isEqual left right))
  | .notEqual => .ok (.bool (!Content.isEqual left right))
  | _ =>
    match Content.number? left, Content.number? right with
    | some leftNumber, some rightNumber => onNumbers operator leftNumber rightNumber
    | _, _ =>
      .error (.error ⟨.notNumbers operator (Content.kind left) (Content.kind right),
        some operator⟩)

/-- The truth value that an operator for truth values needs. -/
def truth (operator : Token) (operand : Content) : Except Stop Bool :=
  match operand with
  | some (.bool truth) => .ok truth
  | _ => .error (.error ⟨.notATruthValue operator (Content.kind operand), some operator⟩)

/-- The number that a prefix operator for numbers needs. -/
def number (operator : Token) (operand : Content) : Except Stop Number :=
  match Content.number? operand with
  | some number => .ok number
  | none => .error (.error ⟨.notANumber operator (Content.kind operand), some operator⟩)

/-- A prefix operator applied to its operand. -/
def unary (operator : Token) (operand : Content) : Except Stop Value :=
  match operator.kind with
  | .notWord => do return .bool (!(← truth operator operand))
  | .minus => do return (← number operator operand).negate.toValue
  | .plus => do return (← number operator operand).toValue
  | _ => .error (.breakdown (.unknownUnary operator.lexeme))

end LineScript.Operator
