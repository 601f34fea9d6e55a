/-
Module: LineScript.Proofs.ExpressionLadder
Purpose: The trees that expressions without superfluous structure have, and the tokens that spell
  them.
Trusted boundary: none
Main exports: TokenKind.strength, Ladder, Spelled, Fits, Joins, joins_of_node
-/
import LineScript.Expr.Basic

/-!
Operators between two operands stand on the steps of a ladder, the loosest at the bottom. A tree
respects the ladder if an operand never holds together less tightly than the operator beside it, and
the one on the right more tightly, so that equal operators group to the left. Below all of them
stands assignment, which is therefore never an operand; on top stand the expressions that are in one
piece, which are all that a prefix operator takes.

Tokens spell a tree if they are its operators and names in their order, with tokens that denote its
literals, a sign in every assignment and parentheses around every group.
-/

namespace LineScript

/-- The step of the ladder on which an operator between two operands stands. What is no such
operator stands below it. -/
def TokenKind.strength : TokenKind → Nat
  | .orWord => 1
  | .andWord => 2
  | .equalEqual | .notEqual => 3
  | .greater | .greaterEqual | .less | .lessEqual => 4
  | .plus | .minus | .concat | .modulo => 5
  | .star | .slash => 6
  | _ => 0

namespace TokenKind

/-- The operators that join truth values, the right one of which may not be needed. -/
def connectives : List TokenKind := [.orWord, .andWord]

/-- The operators that join values. -/
def operations : List TokenKind :=
  [.equalEqual, .notEqual, .greater, .greaterEqual, .less, .lessEqual, .plus, .minus, .concat,
    .modulo, .star, .slash]

theorem mem_connectives {kind : TokenKind} :
    kind ∈ connectives ↔ kind.strength = 1 ∨ kind.strength = 2 := by
  cases kind <;> simp [connectives, strength]

theorem mem_operations {kind : TokenKind} : kind ∈ operations ↔ 3 ≤ kind.strength := by
  cases kind <;> simp [operations, strength]

/-- No operator is stronger than multiplication. -/
theorem strength_le (kind : TokenKind) : kind.strength ≤ 6 := by
  cases kind <;> simp [strength]

end TokenKind

/-- The token stands for a value: it is a literal, the word for the missing value, or the sign for
the end of a line. -/
def Token.Denotes (token : Token) (value : Value) : Prop :=
  (token.kind ∈ [.integerLiteral, .floatLiteral, .stringLiteral, .charLiteral, .trueWord,
      .falseWord] ∧ value = token.literal.getD .null) ∨
    (token.kind = .nullWord ∧ value = .null) ∨
    (token.kind = .dollar ∧ value = .text "\n")

namespace Expr

/-- The step of what is in one piece. -/
def tightest : Nat := 7

/-- The step of the ladder on which an expression stands. -/
def strength : Expr → Nat
  | .assign _ _ => 0
  | .binary _ operator _ => operator.kind.strength
  | .logical _ operator _ => operator.kind.strength
  | .literal _ | .reference _ | .unary _ _ | .group _ => tightest

/-- No expression is tighter than a factor. -/
theorem strength_le (expr : Expr) : expr.strength ≤ tightest := by
  cases expr with
  | binary left operator right | logical left operator right =>
    exact Nat.le_succ_of_le operator.kind.strength_le
  | assign => exact Nat.zero_le _
  | literal | reference | unary | group => exact Nat.le_refl _

/-- The operands of every operator stand where the ladder allows them. -/
def Ladder : Expr → Prop
  | .literal _ => True
  | .reference name => name.kind = .identifier
  | .assign name value => name.kind = .identifier ∧ value.Ladder
  | .unary operator operand =>
    operator.kind ∈ [.notWord, .minus, .plus] ∧ operand.strength = tightest ∧ operand.Ladder
  | .binary left operator right =>
    operator.kind ∈ TokenKind.operations ∧
      operator.kind.strength ≤ left.strength ∧ operator.kind.strength < right.strength ∧
      left.Ladder ∧ right.Ladder
  | .logical left operator right =>
    operator.kind ∈ TokenKind.connectives ∧
      operator.kind.strength ≤ left.strength ∧ operator.kind.strength < right.strength ∧
      left.Ladder ∧ right.Ladder
  | .group inner => inner.Ladder

/-- The tokens, read from left to right, are those of the expression. -/
inductive Spelled : Expr → List Token → Prop where
  | literal {value : Value} {token : Token} (denotes : token.Denotes value) :
      Spelled (.literal value) [token]
  | reference (name : Token) : Spelled (.reference name) [name]
  | assign {name sign : Token} {value : Expr} {tokens : List Token} (equals : sign.kind = .equal)
      (spelled : Spelled value tokens) : Spelled (.assign name value) (name :: sign :: tokens)
  | unary {operator : Token} {operand : Expr} {tokens : List Token}
      (spelled : Spelled operand tokens) : Spelled (.unary operator operand) (operator :: tokens)
  | binary {left right : Expr} {operator : Token} {first second : List Token}
      (before : Spelled left first) (behind : Spelled right second) :
      Spelled (.binary left operator right) (first ++ operator :: second)
  | logical {left right : Expr} {operator : Token} {first second : List Token}
      (before : Spelled left first) (behind : Spelled right second) :
      Spelled (.logical left operator right) (first ++ operator :: second)
  | group {opening closing : Token} {inner : Expr} {tokens : List Token}
      (opens : opening.kind = .leftParen) (closes : closing.kind = .rightParen)
      (spelled : Spelled inner tokens) :
      Spelled (.group inner) (opening :: (tokens ++ [closing]))

/-- Some tokens spell an expression that respects the ladder and stands on a given step of it or
higher. -/
structure Fits (level : Nat) (expr : Expr) (tokens : List Token) : Prop where
  ladder : expr.Ladder
  strong : level ≤ expr.strength
  spelled : expr.Spelled tokens

/-- What fits on a level fits on every lower one. -/
theorem Fits.lower {level lower : Nat} {expr : Expr} {tokens : List Token}
    (fits : Fits level expr tokens) (below : lower ≤ level) : Fits lower expr tokens :=
  ⟨fits.ladder, Nat.le_trans below fits.strong, fits.spelled⟩

/-! ### One step of the ladder

What is known of the operators of one step: how they join operands, and how what is joined comes
apart. The two lower steps join logically, all others join values. -/

/-- The operators of a step join their operands by the given sort of node. -/
structure Joins (level : Nat) (node : Expr → Token → Expr → Expr) : Prop where
  compose : ∀ {left right : Expr} {operator : Token} {first second : List Token},
    operator.kind.strength = level → Fits level left first → Fits (level + 1) right second →
      Fits level (node left operator right) (first ++ operator :: second)
  decompose : ∀ {expr : Expr} {tokens : List Token}, Fits level expr tokens →
    Fits (level + 1) expr tokens ∨
      ∃ left operator right first second, expr = node left operator right ∧
        tokens = first ++ operator :: second ∧ operator.kind.strength = level ∧
        Fits level left first ∧ Fits (level + 1) right second

/-- A node whose rule in the ladder and whose spelling are those of an operator between operands
joins the operands of a step, if the trees on that step are all of its sort. -/
theorem joins_of_node {level : Nat} {node : Expr → Token → Expr → Expr} {kinds : List TokenKind}
    (ladder : ∀ left operator right, (node left operator right).Ladder ↔
      operator.kind ∈ kinds ∧
        operator.kind.strength ≤ left.strength ∧ operator.kind.strength < right.strength ∧
        left.Ladder ∧ right.Ladder)
    (strength : ∀ left operator right,
      (node left operator right).strength = operator.kind.strength)
    (spelled : ∀ left operator right tokens, (node left operator right).Spelled tokens ↔
      ∃ first second, tokens = first ++ operator :: second ∧ left.Spelled first ∧
        right.Spelled second)
    (listed : ∀ kind : TokenKind, kind.strength = level → kind ∈ kinds)
    (shape : ∀ expr : Expr, expr.Ladder → expr.strength = level →
      ∃ left operator right, expr = node left operator right) :
    Joins level node where
  compose := by
    intro left right operator first second stands before behind
    refine ⟨(ladder _ _ _).mpr ⟨listed _ stands, ?_, ?_, before.ladder, behind.ladder⟩, ?_, ?_⟩
    · exact stands ▸ before.strong
    · exact stands ▸ behind.strong
    · exact Nat.le_of_eq ((strength _ _ _).trans stands).symm
    · exact (spelled _ _ _ _).mpr ⟨first, second, rfl, before.spelled, behind.spelled⟩
  decompose := by
    intro expr tokens fits
    by_cases higher : level + 1 ≤ expr.strength
    · exact .inl ⟨fits.ladder, higher, fits.spelled⟩
    · have here : expr.strength = level := Nat.le_antisymm (by omega) fits.strong
      obtain ⟨left, operator, right, rfl⟩ := shape expr fits.ladder here
      have stands : operator.kind.strength = level := (strength _ _ _).symm.trans here
      obtain ⟨_, loose, tight, leftLadder, rightLadder⟩ := (ladder _ _ _).mp fits.ladder
      obtain ⟨first, second, rfl, before, behind⟩ := (spelled _ _ _ _).mp fits.spelled
      exact .inr ⟨left, operator, right, first, second, rfl, rfl, stands,
        ⟨leftLadder, stands ▸ loose, before⟩, ⟨rightLadder, stands ▸ tight, behind⟩⟩

theorem joins_binary {level : Nat} (least : 3 ≤ level) (most : level ≤ 6) :
    Joins level .binary := by
  refine joins_of_node (fun _ _ _ => Iff.rfl) (fun _ _ _ => rfl) ?_ ?_ ?_
  · intro left operator right tokens
    constructor
    · intro spelled
      cases spelled with
      | binary before behind => exact ⟨_, _, rfl, before, behind⟩
    · rintro ⟨first, second, rfl, before, behind⟩
      exact .binary before behind
  · intro kind stands
    exact TokenKind.mem_operations.mpr (stands ▸ least)
  · intro expr ladder stands
    cases expr with
    | binary left operator right => exact ⟨left, operator, right, rfl⟩
    | logical left operator right =>
      have below := TokenKind.mem_connectives.mp ladder.1
      simp only [strength] at stands
      omega
    | literal | reference | assign | unary | group =>
      simp only [strength, tightest] at stands
      omega

theorem joins_logical {level : Nat} (least : 1 ≤ level) (most : level ≤ 2) :
    Joins level .logical := by
  refine joins_of_node (fun _ _ _ => Iff.rfl) (fun _ _ _ => rfl) ?_ ?_ ?_
  · intro left operator right tokens
    constructor
    · intro spelled
      cases spelled with
      | logical before behind => exact ⟨_, _, rfl, before, behind⟩
    · rintro ⟨first, second, rfl, before, behind⟩
      exact .logical before behind
  · intro kind stands
    exact TokenKind.mem_connectives.mpr (by omega)
  · intro expr ladder stands
    cases expr with
    | logical left operator right => exact ⟨left, operator, right, rfl⟩
    | binary left operator right =>
      have above := TokenKind.mem_operations.mp ladder.1
      simp only [strength] at stands
      omega
    | literal | reference | assign | unary | group =>
      simp only [strength, tightest] at stands
      omega

/-! ### The bottom and the top of the ladder -/

/-- At the bottom there is nothing but assignments. -/
theorem Fits.bottom_cases {expr : Expr} {tokens : List Token} (fits : Fits 0 expr tokens) :
    Fits 1 expr tokens ∨
      ∃ name sign value others, expr = .assign name value ∧ tokens = name :: sign :: others ∧
        name.kind = .identifier ∧ sign.kind = .equal ∧ Fits 0 value others := by
  obtain ⟨ladder, _, spelled⟩ := fits
  cases spelled with
  | assign equals spelled =>
    exact .inr ⟨_, _, _, _, rfl, rfl, ladder.1, equals, ladder.2, Nat.zero_le _, spelled⟩
  | binary before behind =>
    have above := TokenKind.mem_operations.mp ladder.1
    exact .inl ⟨ladder, Nat.le_trans (by decide) above, .binary before behind⟩
  | logical before behind =>
    have above := TokenKind.mem_connectives.mp ladder.1
    exact .inl ⟨ladder, by rw [strength]; omega, .logical before behind⟩
  | literal denotes => exact .inl ⟨ladder, by simp [strength, tightest], .literal denotes⟩
  | reference name => exact .inl ⟨ladder, by simp [strength, tightest], .reference name⟩
  | unary spelled => exact .inl ⟨ladder, by simp [strength, tightest], .unary spelled⟩
  | group opens closes spelled =>
    exact .inl ⟨ladder, by simp [strength, tightest], .group opens closes spelled⟩

/-- What stands on top is in one piece. -/
theorem Fits.top_cases {expr : Expr} {tokens : List Token} (fits : Fits tightest expr tokens) :
    (∃ value token, expr = .literal value ∧ tokens = [token] ∧ token.Denotes value) ∨
      (∃ name, expr = .reference name ∧ tokens = [name] ∧ name.kind = .identifier) ∨
      (∃ operator operand others, expr = .unary operator operand ∧ tokens = operator :: others ∧
        operator.kind ∈ [TokenKind.notWord, .minus, .plus] ∧ Fits tightest operand others) ∨
      ∃ opening inner closing others, expr = .group inner ∧
        tokens = opening :: (others ++ [closing]) ∧ opening.kind = .leftParen ∧
        closing.kind = .rightParen ∧ Fits 0 inner others := by
  obtain ⟨ladder, top, spelled⟩ := fits
  cases spelled with
  | literal denotes => exact .inl ⟨_, _, rfl, rfl, denotes⟩
  | reference name => exact .inr (.inl ⟨name, rfl, rfl, ladder⟩)
  | unary spelled =>
    obtain ⟨listed, whole, operandLadder⟩ := ladder
    exact .inr (.inr (.inl ⟨_, _, _, rfl, rfl, listed, operandLadder, whole ▸ Nat.le_refl _,
      spelled⟩))
  | group opens closes spelled =>
    exact .inr (.inr (.inr ⟨_, _, _, _, rfl, rfl, opens, closes, ladder, Nat.zero_le _, spelled⟩))
  | assign => simp [strength, tightest] at top
  | binary | logical =>
    rename_i operator _ _ _ _
    have below := operator.kind.strength_le
    simp only [strength, tightest] at top
    omega

end Expr

end LineScript
