/-
Module: LineScript.RuntimeError
Purpose: The failures that stop a running program, and their wording.
Trusted boundary: none
Main exports: Cause, Cause.className, Cause.text, RuntimeError, RuntimeError.message
-/
import LineScript.Token

/-!
A runtime error has a cause and, where one is known, the token it is reported at. The message of an
error with a token ends by naming the token's line.
-/

namespace LineScript

/-- What stopped a running program. -/
inductive Cause where
  /-- A failure of no particular class. -/
  | general (detail : String)
  | undefinedVariable (name : String)
  | uninitializedVariable (name : String)
  | typeMismatch (name : String) (declared : VarType) (kind : ValueKind)
  | operandType (detail : String)
  | conditionType (detail : String)
  | divisionByZero
  | inputArity (expected actual : Nat)
  | inputFormat (line : String)
  | inputExhausted
  | numericOverflow (detail : String)
  deriving DecidableEq, Repr, Inhabited

namespace Cause

/-- An integer has no double near it. -/
def tooLargeForFloat : Cause :=
  .numericOverflow "Numeric overflow: INT value is too large for a FLOAT"

/-- An integer has too many digits for print. -/
def tooLargeToPrint : Cause :=
  .numericOverflow "Numeric overflow: INT value is too large to print"

/-- An operator for numbers was given something else. -/
def notNumbers (operator : Token) (left right : ValueKind) : Cause :=
  .operandType ("Operands of '" ++ operator.lexeme ++ "' must be numbers, got " ++
    left.label ++ " and " ++ right.label)

/-- An operator for one number was given something else. -/
def notANumber (operator : Token) (kind : ValueKind) : Cause :=
  .operandType ("Operand of '" ++ operator.lexeme ++ "' must be a number, got " ++ kind.label)

/-- An operator for truth values was given something else. -/
def notATruthValue (operator : Token) (kind : ValueKind) : Cause :=
  .operandType ("Operand of '" ++ operator.lexeme ++ "' must be a BOOL, got " ++ kind.label)

/-- A condition was no truth value; the condition is shown. -/
def conditionNotBool (kind : ValueKind) (condition : String) : Cause :=
  .conditionType ("Condition must be a BOOL but was " ++ kind.label ++ ": " ++ condition)

/-- The name of the class of a failure, as reports give it. -/
def className : Cause → String
  | .general _ => "LexorRuntimeError"
  | .undefinedVariable _ => "UndefinedVariableException"
  | .uninitializedVariable _ => "UninitializedVariableException"
  | .typeMismatch _ _ _ => "TypeMismatchException"
  | .operandType _ => "OperandTypeException"
  | .conditionType _ => "ConditionTypeException"
  | .divisionByZero => "DivisionByZeroException"
  | .inputArity _ _ => "InputArityException"
  | .inputFormat _ => "InputFormatException"
  | .inputExhausted => "InputExhaustedException"
  | .numericOverflow _ => "NumericOverflowException"

/-- What a failure says. -/
def text : Cause → String
  | .general detail => detail
  | .undefinedVariable name => "Undefined variable '" ++ name ++ "'"
  | .uninitializedVariable name => "Variable '" ++ name ++ "' used before it was initialized"
  | .typeMismatch name declared kind =>
    "Type mismatch: variable '" ++ name ++ "' is declared " ++ declared.label ++
      " but was given a " ++ kind.label ++ " value"
  | .operandType detail => detail
  | .conditionType detail => detail
  | .divisionByZero => "Cannot divide by zero"
  | .inputArity expected actual =>
    "Expected " ++ Number.natText expected ++ " inputs, but got " ++ Number.natText actual
  | .inputFormat line => "Could not read input values from " ++ quoted line
  | .inputExhausted => "No more input available for SCAN"
  | .numericOverflow detail => detail

end Cause

/-- A failure that stops a running program. -/
structure RuntimeError where
  cause : Cause
  token : Option Token
  deriving DecidableEq, Repr, Inhabited

namespace RuntimeError

/-- Where the error is reported; an error without a token is at no line. -/
def position (error : RuntimeError) : Position :=
  match error.token with
  | some token => token.position
  | none => ⟨0, 0⟩

/-- The message of an error. -/
def message (error : RuntimeError) : String :=
  match error.token with
  | some token => error.cause.text ++ " on line " ++ Number.natText token.position.line
  | none => error.cause.text

end RuntimeError

end LineScript
