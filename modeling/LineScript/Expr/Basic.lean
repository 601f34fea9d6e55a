/-
Module: LineScript.Expr.Basic
Purpose: The trees of expressions and their printed form.
Trusted boundary: none
Main exports: Expr, Expr.token?, Expr.render, Expr.render?
-/
import LineScript.Token

/-!
An expression tree keeps the tokens of its names and operators, so that an error can be reported
where it arises. Its printed form is prefix notation in parentheses, in which texts are quoted and
all other literals stand as program output shows them.
-/

namespace LineScript

/-- An expression. -/
inductive Expr where
  | literal (value : Value)
  | reference (name : Token)
  | assign (name : Token) (value : Expr)
  | unary (operator : Token) (operand : Expr)
  | binary (left : Expr) (operator : Token) (right : Expr)
  /-- A connective whose right side is evaluated only when it decides the result. -/
  | logical (left : Expr) (operator : Token) (right : Expr)
  | group (inner : Expr)
  deriving DecidableEq, Repr, Inhabited

namespace Expr

/-- The token at which an error about the whole expression is reported. -/
def token? : Expr → Option Token
  | .literal _ => none
  | .reference name => some name
  | .assign name _ => some name
  | .unary operator _ => some operator
  | .binary _ operator _ => some operator
  | .logical _ operator _ => some operator
  | .group inner => inner.token?

/-- The printed form of a literal. -/
def renderLiteral : Value → String
  | .text content => quoted content
  | value => value.display

/-- The printed form of an expression. -/
def render : Expr → String
  | .literal value => renderLiteral value
  | .reference name => name.lexeme
  | .assign name value => "(= " ++ name.lexeme ++ " " ++ value.render ++ ")"
  | .unary operator operand => "(" ++ operator.lexeme ++ " " ++ operand.render ++ ")"
  | .binary left operator right =>
    "(" ++ operator.lexeme ++ " " ++ left.render ++ " " ++ right.render ++ ")"
  | .logical left operator right =>
    "(" ++ operator.lexeme ++ " " ++ left.render ++ " " ++ right.render ++ ")"
  | .group inner => "(group " ++ inner.render ++ ")"

/-- No literal of the expression has too many digits for print. -/
def isPrintable : Expr → Bool
  | .literal value => value.isPrintable
  | .reference _ => true
  | .assign _ value => value.isPrintable
  | .unary _ operand => operand.isPrintable
  | .binary left _ right => left.isPrintable && right.isPrintable
  | .logical left _ right => left.isPrintable && right.isPrintable
  | .group inner => inner.isPrintable

/-- The printed form of an expression, if all of it can be written. -/
def render? (expr : Expr) : Option String :=
  if expr.isPrintable then some expr.render else none

end Expr

end LineScript
