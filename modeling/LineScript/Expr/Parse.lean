/-
Module: LineScript.Expr.Parse
Purpose: The parser of expressions.
Trusted boundary: the bound that a host puts on the depth of calls is left out, as in
  LineScript.Program.
Main exports: Expr.chain, Expr.factor, Expr.assignment, Expr.parse
-/
import LineScript.Cursor
import LineScript.Expr.Basic

/-!
Expressions have nine levels of precedence. From the loosest to the tightest: assignment, OR, AND,
equality, comparison, sums (also joining and remainder), products, prefix operators, and primary
expressions. The levels between assignment and prefix operators are chains of operands with
operators between them, grouped to the left; an assignment groups to the right and needs a bare
variable on its left.

The levels are defined over the parser of their operands. Only a factor contains expressions again,
after passing at least one token, so a bound on the tokens left bounds the recursion.
-/

namespace LineScript.Expr

open Parse

/-- The operands and operators of a chain after its first operand. At most as many operators are
passed as the bound says. -/
def chainFrom (operators : List TokenKind) (node : Expr → Token → Expr → Expr)
    (operand : Parse Expr) : Nat → Expr → Parse Expr
  | 0, left => return left
  | bound + 1, left => do
    match ← accept operators with
    | some operator =>
      let right ← operand
      chainFrom operators node operand bound (node left operator right)
    | none => return left

/-- A chain of operands with operators between them, grouped to the left. -/
def chain (operators : List TokenKind) (node : Expr → Token → Expr → Expr)
    (operand : Parse Expr) : Parse Expr := do
  let first ← operand
  chainFrom operators node operand (← remaining) first

/-- Factors multiplied and divided. -/
def product (factor : Parse Expr) : Parse Expr :=
  chain [.star, .slash] .binary factor

/-- Products added, subtracted, joined, and remainders of them. -/
def sum (factor : Parse Expr) : Parse Expr :=
  chain [.plus, .minus, .concat, .modulo] .binary (product factor)

/-- Sums compared by size. -/
def comparison (factor : Parse Expr) : Parse Expr :=
  chain [.greater, .greaterEqual, .less, .lessEqual] .binary (sum factor)

/-- Comparisons tested for equality. -/
def equality (factor : Parse Expr) : Parse Expr :=
  chain [.equalEqual, .notEqual] .binary (comparison factor)

/-- Equalities that must all hold. -/
def conjunction (factor : Parse Expr) : Parse Expr :=
  chain [.andWord] .logical (equality factor)

/-- Conjunctions of which one must hold. -/
def disjunction (factor : Parse Expr) : Parse Expr :=
  chain [.orWord] .logical (conjunction factor)

/-- An assignment, or a disjunction by itself. A target that is no bare variable is reported, and
stands for the whole assignment. -/
def assignment (factor : Parse Expr) : Nat → Parse Expr
  | 0 => disjunction factor
  | bound + 1 => do
    let target ← disjunction factor
    match ← accept [.equal] with
    | none => return target
    | some equals =>
      let value ← assignment factor bound
      match target with
      | .reference name => return .assign name value
      | _ =>
        report equals "Invalid assignment target"
        return target

/-- A prefix operator with its operand, or a primary expression: a literal, a variable or an
expression in parentheses. -/
def factor : Nat → Parse Expr
  | 0 => fail "Expected expression"
  | bound + 1 => do
    let token ← current
    match token.kind with
    | .notWord | .minus | .plus =>
      let _ ← advance
      let operand ← factor bound
      return .unary token operand
    | .integerLiteral | .floatLiteral | .stringLiteral | .charLiteral | .trueWord | .falseWord =>
      let _ ← advance
      return .literal (token.literal.getD .null)
    | .nullWord =>
      let _ ← advance
      return .literal .null
    | .dollar =>
      let _ ← advance
      return .literal (.text "\n")
    | .identifier =>
      let _ ← advance
      return .reference token
    | .leftParen =>
      let _ ← advance
      let inner ← assignment (factor bound) bound
      let _ ← expect .rightParen "Expected ')' after expression"
      return .group inner
    | _ => fail "Expected expression"

/-- Runs the parser of a level over factors as deep as the tokens left allow. -/
def atLevel (level : Parse Expr → Parse Expr) : Parse Expr := do
  level (factor (← remaining))

/-- A whole expression. -/
def parse : Parse Expr := do
  let bound ← remaining
  assignment (factor bound) bound

end LineScript.Expr
