/-
Module: LineScript.Stmt.Basic
Purpose: The trees of statements and their printed form.
Trusted boundary: none
Main exports: Declarator, Stmt, Stmt.forLoop, Stmt.render, Stmt.renderProgram
-/
import LineScript.Expr.Basic

/-!
There is one kind of loop: both loop forms of the language are built from it, `Stmt.forLoop` saying
how. The printed form of a statement is the prefix notation of expressions, with nested statements
on lines of their own, indented by their depth.
-/

namespace LineScript

/-- One name of a declaration, with the expression that gives its first value. -/
structure Declarator where
  name : Token
  initializer : Option Expr
  deriving DecidableEq, Repr, Inhabited

/-- A statement. -/
inductive Stmt where
  | declare (type : VarType) (names : List Declarator)
  | expression (expr : Expr)
  | print (expr : Expr)
  /-- Reads one line of input into at least one variable. -/
  | scan (first : Token) (others : List Token)
  | branch (keyword : Option Token) (condition : Expr) (thenBranch : Stmt)
      (elseBranch : Option Stmt)
  /-- Runs its body as long as its condition holds, which is tested first. -/
  | loop (keyword : Option Token) (condition : Expr) (body : Stmt)
  | block (statements : List Stmt)
  deriving Repr, Inhabited

namespace Stmt

/-- A counted loop: the first clause once, then the body followed by the last clause as long as the
middle clause holds. Every clause may be missing, a missing condition always holding. -/
def forLoop (keyword : Token) (first condition last : Option Expr) (body : Stmt) : Stmt :=
  let step := last.toList.map .expression
  let loop := Stmt.loop (some keyword) (condition.getD (.literal (.bool true)))
    (.block (body :: step))
  match first with
  | some expr => .block [.expression expr, loop]
  | none => loop

/-- The printed form of a declared name. -/
def renderDeclarator (declarator : Declarator) : String :=
  match declarator.initializer with
  | none => declarator.name.lexeme
  | some expr => "(= " ++ declarator.name.lexeme ++ " " ++ expr.render ++ ")"

/-- The white space before a line at a depth. -/
def pad (indent : String) (depth : Nat) : String :=
  String.join (List.replicate depth indent)

/-- Parts with a space between each two. -/
def spaced (parts : List String) : String :=
  String.intercalate " " parts

mutual

/-- The printed form of a statement at a depth. -/
def render (indent : String) (depth : Nat) : Stmt → String
  | .declare type names =>
    pad indent depth ++ "(declare " ++ type.label ++ " " ++ spaced (names.map renderDeclarator) ++
      ")"
  | .expression expr => pad indent depth ++ expr.render
  | .print expr => pad indent depth ++ "(print " ++ expr.render ++ ")"
  | .scan first others =>
    pad indent depth ++ "(scan " ++ spaced ((first :: others).map Token.lexeme) ++ ")"
  | .branch _ condition thenBranch elseBranch =>
    pad indent depth ++ "(if " ++ condition.render ++ "\n" ++
      thenBranch.render indent (depth + 1) ++ renderElse indent (depth + 1) elseBranch ++ ")"
  | .loop _ condition body =>
    pad indent depth ++ "(when " ++ condition.render ++ "\n" ++
      body.render indent (depth + 1) ++ ")"
  | .block statements =>
    pad indent depth ++ "(block" ++ renderEach indent (depth + 1) statements ++ ")"

/-- The printed form of a missing or present other branch, on a line of its own. -/
def renderElse (indent : String) (depth : Nat) : Option Stmt → String
  | none => ""
  | some statement => "\n" ++ statement.render indent depth

/-- The printed forms of statements, each on a line of its own. -/
def renderEach (indent : String) (depth : Nat) : List Stmt → String
  | [] => ""
  | statement :: rest => "\n" ++ statement.render indent depth ++ renderEach indent depth rest

end

/-- The white space by which a dump indents nested statements. -/
def defaultIndent : String := "  "

/-- The printed form of a program, one statement after the other. -/
def renderProgram (indent : String) (statements : List Stmt) : String :=
  String.intercalate "\n" (statements.map (render indent 0))

end Stmt

end LineScript
