/-
Module: LineScript.Stmt.Exec
Purpose: The execution of statements.
Trusted boundary: the bound that a host puts on the depth of calls is left out, as in
  LineScript.Expr.Eval.
Main exports: Input.values, Run.readValues, Run.scan, Stmt.exec, Stmt.execEach
-/
import LineScript.Expr.Eval
import LineScript.Lexed
import LineScript.Stmt.Basic

/-!
A block runs in a scope of its own. Loops take fuel: each time a loop is entered it may run its body
at most as often as the fuel says, and a program that needs more stops as out of fuel. A program
that halts at all halts alike for every large enough fuel.

A line of input holds values for variables. It is lexed as source text: literals and truth values
stand for themselves, a sign in front of a number belongs to it, a word that is not reserved is a
text, and everything else separates values.
-/

namespace LineScript

namespace Input

/-- The value that a token of an input line stands for, if it stands for one. -/
def value? (negative : Bool) (token : Token) : Option Value :=
  match token.kind with
  | .integerLiteral | .floatLiteral =>
    token.literal.map fun value =>
      match value.number? with
      | some number => if negative then number.negate.toValue else value
      | none => value
  | .stringLiteral | .charLiteral | .trueWord | .falseWord => token.literal
  | .identifier => some (.text token.lexeme)
  | _ => none

/-- The values of an input line. A number is negative if the token before it is a minus. -/
def values (negative : Bool) : List Token → List Value
  | [] => []
  | token :: rest => (value? negative token).toList ++ values (token.kind == .minus) rest

end Input

namespace Run

/-- The values of the next line of input. -/
def readValues (token : Token) : Run (List Value) := do
  let line := Text.dropLineEnd (← nextLine token)
  let lexed := lexChars line
  if lexed.errors.isEmpty then
    return Input.values false lexed.tokens
  else
    fail (.inputFormat (String.ofList line)) (some token)

/-- Gives some variables values, one after the other. -/
def assignEach : List (Token × Value) → Run Unit
  | [] => return ()
  | (name, value) :: rest => do
    assign name value
    assignEach rest

/-- Reads a line with exactly one value for each variable. -/
def scan (first : Token) (others : List Token) : Run Unit := do
  let names := first :: others
  let values ← readValues first
  if values.length = names.length then
    assignEach (names.zip values)
  else
    fail (.inputArity names.length values.length) (some first)

/-- Declares some variables of one type, each with the value of its initializer. -/
def declareEach (type : VarType) : List Declarator → Run Unit
  | [] => return ()
  | declarator :: rest => do
    let value ← declarator.initializer.mapM Expr.eval
    declare declarator.name type value
    declareEach type rest

/-- Prints the value of an expression. -/
def print (expr : Expr) : Run Unit := do
  let value ← expr.eval
  write (← ofExcept (Operator.printed expr.token? (some value)))

end Run

namespace Stmt

mutual

/-- Runs a statement. -/
def exec (fuel : Nat) : Stmt → Run Unit
  | .declare type names => Run.declareEach type names
  | .expression expr => do
    let _ ← expr.eval
  | .print expr => Run.print expr
  | .scan first others => Run.scan first others
  | .branch keyword condition thenBranch elseBranch => do
    if ← condition.evalCondition keyword then
      thenBranch.exec fuel
    else
      execElse fuel elseBranch
  | .loop keyword condition body =>
    Run.whileLoop (condition.evalCondition keyword) (body.exec fuel) fuel
  | .block statements => Run.inScope (execEach fuel statements)

/-- Runs the other branch of a conditional, if there is one. -/
def execElse (fuel : Nat) : Option Stmt → Run Unit
  | none => return ()
  | some statement => statement.exec fuel

/-- Runs statements one after the other. -/
def execEach (fuel : Nat) : List Stmt → Run Unit
  | [] => return ()
  | statement :: rest => do
    statement.exec fuel
    execEach fuel rest

end

end Stmt

end LineScript
