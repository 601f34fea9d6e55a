/-
Module: LineScript.Stmt.Parse
Purpose: The parser of statements.
Trusted boundary: the bound that a host puts on the depth of calls is left out, as in
  LineScript.Program.
Main exports: Nesting, Stmt.run, Stmt.declaration, Stmt.statement, Stmt.parse, Stmt.parseRun
-/
import LineScript.Expr.Parse
import LineScript.Stmt.Basic

/-!
Every statement ends its line. The forms with nested statements hold them between a line `START` and
a line `END` that name the form, and blank lines may stand between statements. A broken statement is
reported and given up; parsing resumes behind it, so that later errors are found as well.

The parsers of the nested forms are defined over the parser of the statements inside. A nested
statement starts at least one token later, so a bound on the tokens left bounds the recursion.
-/

namespace LineScript.Stmt

open Parse

/-- Where a run of statements stands. -/
inductive Nesting where
  /-- Outside all blocks: the run ends at the `END` of the script. -/
  | topLevel
  /-- Inside a block: the run ends at any `END`. -/
  | inBlock
  deriving DecidableEq, Repr, Inhabited

/-- Whether a run of statements ends at the cursor. -/
def endsAt (nesting : Nesting) (cursor : Cursor) : Bool :=
  match cursor.current.kind with
  | .eof => true
  | .endWord =>
    match nesting with
    | .topLevel => (cursor.peek 1).kind == .scriptWord
    | .inBlock => true
  | _ => false

/-- Whether a run of statements ends here. -/
def atEnd (nesting : Nesting) : Parse Bool := fun progress =>
  .ok (endsAt nesting progress.cursor) progress

/-- One round of a run of statements: a stray `END` is reported with its line passed over, anything
else is parsed as a statement. -/
def round (item : Parse Stmt) : Parse (Option Stmt) := do
  if ← check [.endWord] then
    report (← current) "Unexpected 'END' without a matching block"
    skipLine
    return none
  else
    recover item

/-- The rounds of a run of statements, at most as many as the bound says. -/
def runFrom (nesting : Nesting) (item : Parse Stmt) : Nat → Parse (List Stmt)
  | 0 => return []
  | bound + 1 => do
    if ← atEnd nesting then
      return []
    else
      let found ← round item
      skipNewlines
      let rest ← runFrom nesting item bound
      return found.toList ++ rest

/-- A run of statements with the blank lines around them. Broken statements are left out. -/
def run (nesting : Nesting) (item : Parse Stmt) : Parse (List Stmt) := do
  skipNewlines
  runFrom nesting item (← remaining)

/-- Some names separated by commas, the first one already passed. -/
def moreNames : Nat → Parse (List Token)
  | 0 => return []
  | bound + 1 => do
    match ← accept [.comma] with
    | none => return []
    | some _ =>
      let name ← expect .identifier "Expected variable name"
      let rest ← moreNames bound
      return name :: rest

/-- One name of a declaration. -/
def declarator : Parse Declarator := do
  let name ← expect .identifier "Expected variable name"
  match ← accept [.equal] with
  | none => return ⟨name, none⟩
  | some _ => return ⟨name, some (← Expr.parse)⟩

/-- Some declared names separated by commas, the first one already passed. -/
def moreDeclarators : Nat → Parse (List Declarator)
  | 0 => return []
  | bound + 1 => do
    match ← accept [.comma] with
    | none => return []
    | some _ =>
      let next ← declarator
      let rest ← moreDeclarators bound
      return next :: rest

/-- The name of a type. -/
def typeName : Parse VarType := do
  match (← current).kind with
  | .typeName type =>
    let _ ← advance
    return type
  | _ => fail "Expected variable type"

/-- A declaration of variables of one type. -/
def declaration : Parse Stmt := do
  let _ ← expect .declareWord "Expected 'DECLARE'"
  let type ← typeName
  let first ← declarator
  let others ← moreDeclarators (← remaining)
  endLine "Expected newline after variable declaration"
  return .declare type (first :: others)

/-- A statement that prints a value. -/
def printing : Parse Stmt := do
  let _ ← expect .printWord "Expected 'PRINT'"
  let _ ← expect .colon "Expected ':' after 'PRINT'"
  let expr ← Expr.parse
  endLine "Expected newline after value"
  return .print expr

/-- A statement that reads input. -/
def scanning : Parse Stmt := do
  let _ ← expect .scanWord "Expected 'SCAN'"
  let _ ← expect .colon "Expected ':' after 'SCAN'"
  let first ← expect .identifier "Expected variable name"
  let others ← moreNames (← remaining)
  endLine "Expected newline after SCAN variables"
  return .scan first others

/-- A condition in parentheses that ends the header line of a statement named by some words. -/
def condition (header : String) : Parse Expr := do
  let _ ← expect .leftParen ("Expected '(' after '" ++ header ++ "'")
  let expr ← Expr.parse
  let _ ← expect .rightParen "Expected ')' after condition"
  endLine ("Expected newline after '" ++ header ++ "' condition")
  return expr

/-- The statements between the lines `START` and `END` of a form. The newline behind the closing
line is left in place. -/
def blockOf (item : Parse Stmt) (form : TokenKind) : Parse Stmt := do
  skipNewlines
  let _ ← expect .startWord ("Expected 'START " ++ form.label ++ "'")
  let _ ← expect form ("Expected 'START " ++ form.label ++ "'")
  endLine ("Expected newline after 'START " ++ form.label ++ "'")
  let statements ← run .inBlock item
  let _ ← expect .endWord ("Expected 'END " ++ form.label ++ "'")
  let _ ← expect form ("Expected 'END " ++ form.label ++ "'")
  return .block statements

/-- A conditional statement. The other branch is a block, or again a conditional on the line of its
`ELSE`; at most as many of those are passed as the bound says. -/
def conditional (item : Parse Stmt) : Nat → Parse Stmt
  | 0 => fail "Expected 'IF'"
  | bound + 1 => do
    let keyword ← expect .ifWord "Expected 'IF'"
    let test ← condition "IF"
    let thenBranch ← blockOf item .ifWord
    endLine "Expected newline after 'END IF'"
    skipNewlines
    match ← accept [.elseWord] with
    | none => return .branch (some keyword) test thenBranch none
    | some _ =>
      if ← check [.ifWord] then
        let elseBranch ← conditional item bound
        return .branch (some keyword) test thenBranch (some elseBranch)
      else
        endLine "Expected newline after 'ELSE'"
        let elseBranch ← blockOf item .ifWord
        endLine "Expected newline after 'END IF'"
        return .branch (some keyword) test thenBranch (some elseBranch)

/-- A loop with a condition. -/
def repetition (item : Parse Stmt) : Parse Stmt := do
  let keyword ← expect .repeatWord "Expected 'REPEAT'"
  let _ ← expect .whenWord "Expected 'WHEN' after 'REPEAT'"
  let test ← condition "REPEAT WHEN"
  let body ← blockOf item .repeatWord
  endLine "Expected newline after 'END REPEAT'"
  return .loop (some keyword) test body

/-- A clause of a counted loop, missing if the token that closes it follows at once. -/
def clause (closer : TokenKind) : Parse (Option Expr) := do
  if ← check [closer] then
    return none
  else
    return some (← Expr.parse)

/-- A counted loop. -/
def counting (item : Parse Stmt) : Parse Stmt := do
  let keyword ← expect .forWord "Expected 'FOR'"
  let _ ← expect .leftParen "Expected '(' after 'FOR'"
  let first ← clause .comma
  let _ ← expect .comma "Expected ',' after loop initializer"
  let test ← clause .comma
  let _ ← expect .comma "Expected ',' after loop condition"
  let last ← clause .rightParen
  let _ ← expect .rightParen "Expected ')' after FOR clauses"
  endLine "Expected newline after 'FOR' clauses"
  let body ← blockOf item .forWord
  endLine "Expected newline after 'END FOR'"
  return forLoop keyword first test last body

/-- An expression that stands as a statement. -/
def expressionLine : Parse Stmt := do
  let expr ← Expr.parse
  endLine "Expected newline after expression"
  return .expression expr

/-- A statement whose nested statements are parsed by the given parser. -/
def statementOver (item : Parse Stmt) : Parse Stmt := do
  match (← current).kind with
  | .declareWord => fail "Declarations must come before executable statements"
  | .printWord => printing
  | .scanWord => scanning
  | .ifWord => conditional item (← remaining)
  | .repeatWord => repetition item
  | .forWord => counting item
  | _ => expressionLine

/-- A statement with at most as many levels of nesting as the bound says. -/
def statement : Nat → Parse Stmt
  | 0 => fail "Expected expression"
  | bound + 1 => statementOver (statement bound)

/-- A form of statement over nested statements as deep as the tokens left allow. -/
def atDepth (form : Parse Stmt → Parse α) : Parse α := do
  form (statement (← remaining))

/-- A statement. -/
def parse : Parse Stmt := do
  statement (← remaining)

/-- The statements of a program or a block. -/
def parseRun (nesting : Nesting) : Parse (List Stmt) :=
  atDepth (run nesting)

end LineScript.Stmt
