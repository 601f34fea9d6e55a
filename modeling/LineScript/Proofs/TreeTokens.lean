/-
Module: LineScript.Proofs.TreeTokens
Purpose: The tokens that trees are made of, and trees with their tokens replaced.
Trusted boundary: none
Main exports: Expr.mapTokens, Stmt.mapTokens, Stmt.MadeOf, Stmt.EachMadeOf
-/
import LineScript.Proofs.OperatorBreakdown
import LineScript.Stmt.Basic

/-!
A tree keeps the tokens of its names, operators and keywords. `MadeOf` says that all of them satisfy
a condition and are of a kind that belongs there, and that the tree has one of the shapes which
source texts have. `mapTokens` replaces every token of a tree and leaves the rest as it is.
-/

namespace LineScript

namespace Expr

/-- The expression with every token replaced. -/
def mapTokens (replace : Token → Token) : Expr → Expr
  | .literal value => .literal value
  | .reference name => .reference (replace name)
  | .assign name value => .assign (replace name) (value.mapTokens replace)
  | .unary operator operand => .unary (replace operator) (operand.mapTokens replace)
  | .binary left operator right =>
    .binary (left.mapTokens replace) (replace operator) (right.mapTokens replace)
  | .logical left operator right =>
    .logical (left.mapTokens replace) (replace operator) (right.mapTokens replace)
  | .group inner => .group (inner.mapTokens replace)

/-- The kinds of the connectives. -/
def connectiveKinds : List TokenKind := [.andWord, .orWord]

/-- The values that stand in trees without a token that denotes them. -/
def undenoted : List Value := [.null, .text "\n", .bool true]

/-- All tokens of the expression are fine and of a kind that belongs where they stand. -/
def MadeOf (fine : Token → Prop) : Expr → Prop
  | .literal value => value ∈ undenoted ∨ ∃ token, fine token ∧ token.literal = some value
  | .reference name => fine name ∧ name.kind = .identifier
  | .assign name value => (fine name ∧ name.kind = .identifier) ∧ value.MadeOf fine
  | .unary operator operand =>
    (fine operator ∧ operator.kind ∈ Operator.prefixKinds) ∧ operand.MadeOf fine
  | .binary left operator right =>
    (fine operator ∧ operator.kind ∈ Operator.infixKinds) ∧ left.MadeOf fine ∧ right.MadeOf fine
  | .logical left operator right =>
    (fine operator ∧ operator.kind ∈ connectiveKinds) ∧ left.MadeOf fine ∧ right.MadeOf fine
  | .group inner => inner.MadeOf fine

end Expr

namespace Declarator

/-- The declared name with every token replaced. -/
def mapTokens (replace : Token → Token) (declarator : Declarator) : Declarator :=
  ⟨replace declarator.name, declarator.initializer.map (Expr.mapTokens replace)⟩

/-- The name is a fine identifier, and so are all tokens of the initializer if there is one. -/
def MadeOf (fine : Token → Prop) (declarator : Declarator) : Prop :=
  (fine declarator.name ∧ declarator.name.kind = .identifier) ∧
    ∀ expr, declarator.initializer = some expr → expr.MadeOf fine

end Declarator

namespace Stmt

mutual

/-- The statement with every token replaced. -/
def mapTokens (replace : Token → Token) : Stmt → Stmt
  | .declare type names => .declare type (names.map (Declarator.mapTokens replace))
  | .expression expr => .expression (expr.mapTokens replace)
  | .print expr => .print (expr.mapTokens replace)
  | .scan first others => .scan (replace first) (others.map replace)
  | .branch keyword condition thenBranch elseBranch =>
    .branch (keyword.map replace) (condition.mapTokens replace) (thenBranch.mapTokens replace)
      (mapElse replace elseBranch)
  | .loop keyword condition body =>
    .loop (keyword.map replace) (condition.mapTokens replace) (body.mapTokens replace)
  | .block statements => .block (mapEach replace statements)

/-- The other branch of a conditional, if there is one, with every token replaced. -/
def mapElse (replace : Token → Token) : Option Stmt → Option Stmt
  | none => none
  | some statement => some (statement.mapTokens replace)

/-- Some statements with every token replaced. -/
def mapEach (replace : Token → Token) : List Stmt → List Stmt
  | [] => []
  | statement :: rest => statement.mapTokens replace :: mapEach replace rest

end

theorem mapEach_eq_map (replace : Token → Token) (statements : List Stmt) :
    mapEach replace statements = statements.map (mapTokens replace) := by
  induction statements with
  | nil => rfl
  | cons statement rest inductionHypothesis => rw [mapEach, inductionHypothesis, List.map_cons]

/-- The statement is a block. -/
def IsBlock (statement : Stmt) : Prop :=
  ∃ statements, statement = .block statements

/-- The statement is a conditional. -/
def IsBranch (statement : Stmt) : Prop :=
  ∃ keyword condition thenBranch elseBranch,
    statement = .branch keyword condition thenBranch elseBranch

/-- A keyword is there, fine, and of one of some kinds. -/
def Keyed (fine : Token → Prop) (kinds : List TokenKind) (keyword : Option Token) : Prop :=
  ∃ word, keyword = some word ∧ fine word ∧ word.kind ∈ kinds

mutual

/-- All tokens of the statement are fine and of a kind that belongs where they stand, and it has one
of the shapes of source texts: branches and bodies are blocks, another branch may also be a
conditional, and something is declared or read. -/
def MadeOf (fine : Token → Prop) : Stmt → Prop
  | .declare _ names => names ≠ [] ∧ ∀ declarator ∈ names, declarator.MadeOf fine
  | .expression expr => expr.MadeOf fine
  | .print expr => expr.MadeOf fine
  | .scan first others => ∀ name ∈ first :: others, fine name ∧ name.kind = .identifier
  | .branch keyword condition thenBranch elseBranch =>
    Keyed fine [.ifWord] keyword ∧ condition.MadeOf fine ∧
      (thenBranch.IsBlock ∧ thenBranch.MadeOf fine) ∧ ElseMadeOf fine elseBranch
  | .loop keyword condition body =>
    Keyed fine [.forWord, .repeatWord] keyword ∧ condition.MadeOf fine ∧
      body.IsBlock ∧ body.MadeOf fine
  | .block statements => EachMadeOf fine statements

/-- So it is with the other branch of a conditional, if there is one. -/
def ElseMadeOf (fine : Token → Prop) : Option Stmt → Prop
  | none => True
  | some statement => (statement.IsBlock ∨ statement.IsBranch) ∧ statement.MadeOf fine

/-- So it is with each of some statements. -/
def EachMadeOf (fine : Token → Prop) : List Stmt → Prop
  | [] => True
  | statement :: rest => statement.MadeOf fine ∧ EachMadeOf fine rest

end

/-- A sequence is made of fine tokens just when each statement of it is. -/
theorem eachMadeOf_iff {fine : Token → Prop} {statements : List Stmt} :
    EachMadeOf fine statements ↔ ∀ statement ∈ statements, statement.MadeOf fine := by
  induction statements with
  | nil => simp [EachMadeOf]
  | cons statement rest inductionHypothesis =>
    rw [EachMadeOf, inductionHypothesis, List.forall_mem_cons]

theorem eachMadeOf_append {fine : Token → Prop} {first second : List Stmt}
    (front : EachMadeOf fine first) (back : EachMadeOf fine second) :
    EachMadeOf fine (first ++ second) :=
  eachMadeOf_iff.mpr
    (List.forall_mem_append.mpr ⟨eachMadeOf_iff.mp front, eachMadeOf_iff.mp back⟩)

theorem eachMadeOf_toList {fine : Token → Prop} {found : Option Stmt}
    (made : ∀ statement, found = some statement → statement.MadeOf fine) :
    EachMadeOf fine found.toList :=
  eachMadeOf_iff.mpr fun statement member => made statement (Option.mem_toList.mp member)

section Counted

variable {fine : Token → Prop} {keyword : Token} {first condition last : Option Expr} {body : Stmt}

/-- The tree of a counted loop is made of the tokens of its parts. -/
theorem forLoop_madeOf (word : fine keyword ∧ keyword.kind = .forWord)
    (firstMade : ∀ expr, first = some expr → expr.MadeOf fine)
    (conditionMade : ∀ expr, condition = some expr → expr.MadeOf fine)
    (lastMade : ∀ expr, last = some expr → expr.MadeOf fine) (bodyMade : body.MadeOf fine) :
    (forLoop keyword first condition last body).MadeOf fine := by
  have keyed : Keyed fine [.forWord, .repeatWord] (some keyword) :=
    ⟨keyword, rfl, word.1, by simp [word.2]⟩
  have stepMade : EachMadeOf fine (body :: last.toList.map .expression) := by
    refine ⟨bodyMade, ?_⟩
    cases last with
    | none => trivial
    | some expr => exact ⟨lastMade expr rfl, trivial⟩
  have testMade : (condition.getD (.literal (.bool true))).MadeOf fine := by
    cases condition with
    | none => exact .inl (by simp [Expr.undenoted])
    | some expr => exact conditionMade expr rfl
  have loopMade : (Stmt.loop (some keyword) (condition.getD (.literal (.bool true)))
      (.block (body :: last.toList.map .expression))).MadeOf fine :=
    ⟨keyed, testMade, ⟨_, rfl⟩, stepMade⟩
  cases first with
  | none => exact loopMade
  | some expr => exact ⟨firstMade expr rfl, loopMade, trivial⟩

/-- The derived tree of a counting loop is built of the replaced parts. -/
theorem mapTokens_forLoop (replace : Token → Token) :
    (forLoop keyword first condition last body).mapTokens replace =
      forLoop (replace keyword) (first.map (Expr.mapTokens replace))
        (condition.map (Expr.mapTokens replace)) (last.map (Expr.mapTokens replace))
        (body.mapTokens replace) := by
  cases first <;> cases condition <;> cases last <;>
    simp [forLoop, mapTokens, mapEach, Expr.mapTokens]

end Counted

end Stmt

end LineScript
