/-
Module: LineScript.Expr.Eval
Purpose: The evaluation of expressions.
Trusted boundary: a host evaluates a tree by calls inside calls and bounds their depth. This bound
  is left out: an expression of any depth is evaluated, and the error that a host raises at its
  bound does not occur.
Main exports: Expr.eval, Expr.evalCondition
-/
import LineScript.Expr.Basic
import LineScript.Operator

/-!
Operands are evaluated from left to right. A connective evaluates its right side only if the left
one does not decide. An assignment yields the value it was given, not the one that was stored.
-/

namespace LineScript.Expr

/-- The value of an expression, however deep it is: no bound on the depth of calls is modelled. -/
def eval : Expr → Run Value
  | .literal value => return value
  | .group inner => inner.eval
  | .reference name => Run.read name
  | .assign name expr => do
    let value ← expr.eval
    Run.assign name value
    return value
  | .logical left operator right => do
    let first ← Run.ofExcept (Operator.truth operator (some (← left.eval)))
    if first = (operator.kind == .orWord) then
      return .bool first
    else
      let second ← Run.ofExcept (Operator.truth operator (some (← right.eval)))
      return .bool second
  | .unary operator operand => do
    Run.ofExcept (Operator.unary operator (some (← operand.eval)))
  | .binary left operator right => do
    let first ← left.eval
    let second ← right.eval
    Run.ofExcept (Operator.binary operator (some first) (some second))

/-- The truth value of a condition. An error is reported at the condition's own token, or else at
the keyword of its statement. -/
def evalCondition (keyword : Option Token) (expr : Expr) : Run Bool := do
  match ← expr.eval with
  | .bool truth => return truth
  | value =>
    match expr.render? with
    | some shown =>
      Run.fail (.conditionNotBool value.kind shown) (expr.token?.or keyword)
    | none => throw (.breakdown .unprintable)

end LineScript.Expr
