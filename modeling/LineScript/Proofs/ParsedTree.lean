/-
Module: LineScript.Proofs.ParsedTree
Purpose: What holds of every tree that the parser builds.
Trusted boundary: none
Main exports: Progress.Within, Yields, Stmt.WellFormed, parse_madeOf, parse_wellFormed, parse_shape
-/
import LineScript.Proofs.DeclarationOrder
import LineScript.Proofs.TreeTokens

/-!
The parser makes its trees of the tokens it was given: names, operators and keywords are tokens of
the right kind, literals are what tokens denote, and branches and bodies are blocks. `Yields` carries
this through the parser; it holds along error recovery too, since moving the cursor never changes the
list of tokens. So errors are reported at tokens that were given, and if no token denotes an integer
with too many digits for print, no tree does.
-/

namespace LineScript

/-! ### Moving never changes the tokens -/

namespace Cursor

@[simp] theorem tokens_advance (cursor : Cursor) : cursor.advance.tokens = cursor.tokens := by
  unfold advance
  split
  · rfl
  · split
    · rfl
    · rename_i next rest after
      simp [tokens, after]

/-- A run of tokens that is passed is still among the tokens. -/
@[simp] theorem tokens_passWhile (sort : TokenKind → Bool) (before : List Token) (current : Token)
    (after : List Token) :
    (passWhile sort before current after).tokens = before.reverse ++ current :: after := by
  induction after generalizing before current with
  | nil => rfl
  | cons next rest inductionHypothesis =>
    unfold passWhile
    split
    · rw [inductionHypothesis]
      simp
    · rfl

@[simp] theorem tokens_skipNewlines (cursor : Cursor) :
    cursor.skipNewlines.tokens = cursor.tokens :=
  tokens_passWhile _ _ _ _

@[simp] theorem tokens_skipLine (cursor : Cursor) : cursor.skipLine.tokens = cursor.tokens := by
  unfold skipLine
  dsimp only
  split
  · rw [tokens_advance, tokens_passWhile]
    rfl
  · rw [tokens_passWhile]
    rfl

@[simp] theorem tokens_passUntilResumption (previous : Token) (before : List Token)
    (current : Token) (after : List Token) :
    (passUntilResumption previous before current after).tokens =
      before.reverse ++ current :: after := by
  induction after generalizing previous before current with
  | nil => rfl
  | cons next rest inductionHypothesis =>
    unfold passUntilResumption
    split
    · rfl
    · rw [inductionHypothesis]
      simp

/-- Wherever parsing resumes, it is in the same tokens. -/
@[simp] theorem tokens_synchronize (cursor : Cursor) :
    cursor.synchronize.tokens = cursor.tokens := by
  unfold synchronize
  dsimp only
  rw [tokens_passUntilResumption]
  exact tokens_advance cursor

/-- The current token is one of the tokens. -/
theorem current_mem_tokens (cursor : Cursor) : cursor.current ∈ cursor.tokens := by
  simp [tokens]

end Cursor

/-! ### Parsers over fixed tokens -/

/-- A parser has not changed its tokens, and what it has reported is at some of them. -/
structure Progress.Within (tokens : List Token) (start reached : Progress) : Prop where
  kept : reached.cursor.tokens = tokens
  placed : ∀ error ∈ reached.errors, error ∈ start.errors ∨ error.token ∈ tokens

section Within

variable {tokens : List Token} {start middle reached : Progress}

/-- A parser that moves and reports nothing is within its tokens. -/
theorem Progress.Within.moved (kept : reached.cursor.tokens = tokens)
    (quiet : reached.errors = start.errors) : start.Within tokens reached :=
  ⟨kept, fun _ member => .inl (quiet ▸ member)⟩

/-- What is reported on the way is reported in one part of the way or in the other. -/
theorem Progress.Within.trans (first : start.Within tokens middle)
    (second : middle.Within tokens reached) : start.Within tokens reached where
  kept := second.kept
  placed := by
    intro error member
    rcases second.placed error member with earlier | later
    · exact first.placed error earlier
    · exact .inr later

/-- One more error was reported, at the given token. -/
theorem Progress.Within.reported {token : Token} (message : String)
    (kept : start.cursor.tokens = tokens) (member : token ∈ tokens) :
    start.Within tokens (start.reporting ⟨token, message⟩) where
  kept := kept
  placed := by
    intro error listed
    rcases List.mem_append.mp listed with earlier | new
    · exact .inl earlier
    · rw [List.mem_singleton.mp new]
      exact .inr member

end Within

namespace Parse

/-- Over the given tokens, what the parser finds is good. Whether it finds something or gives up, it
leaves the tokens as they are and reports errors at them only. -/
def Yields {α : Type} (tokens : List Token) (parser : Parse α) (good : α → Prop) : Prop :=
  ∀ progress, progress.cursor.tokens = tokens →
    match parser progress with
    | .ok value reached => progress.Within tokens reached ∧ good value
    | .error _ reached => progress.Within tokens reached

variable {α β : Type} {tokens : List Token}

/-- What a parser gives may be told less exactly. -/
theorem Yields.weaken {parser : Parse α} {good better : α → Prop}
    (yields : Yields tokens parser good) (implies : ∀ {value}, good value → better value) :
    Yields tokens parser better := by
  intro progress start
  have ending := yields progress start
  cases shape : parser progress with
  | ok value reached =>
    rw [shape] at ending
    exact ⟨ending.1, implies ending.2⟩
  | error error reached =>
    rw [shape] at ending
    exact ending

/-- What is given without parsing is as good as it is. -/
theorem Yields.pure {value : α} {good : α → Prop} (holds : good value) :
    Yields tokens (Pure.pure value : Parse α) good :=
  fun _ start => ⟨.moved start rfl, holds⟩

/-- What the second of two parsers gives may be told from what the first one has given. -/
theorem Yields.bind {parser : Parse α} {next : α → Parse β} {good : α → Prop} {final : β → Prop}
    (first : Yields tokens parser good)
    (second : ∀ value, good value → Yields tokens (next value) final) :
    Yields tokens (parser >>= next) final := by
  intro progress start
  have ending := first progress start
  rw [Action.bind_apply]
  cases shape : parser progress with
  | error error reached =>
    rw [shape] at ending
    exact ending
  | ok value middle =>
    rw [shape] at ending
    have rest := second value ending.2 middle ending.1.kept
    dsimp only
    cases continued : next value middle with
    | ok result reached =>
      rw [continued] at rest
      exact ⟨ending.1.trans rest.1, rest.2⟩
    | error error reached =>
      rw [continued] at rest
      exact ending.1.trans rest

theorem current_yields : Yields tokens current (· ∈ tokens) :=
  fun progress start => ⟨.moved start rfl, start ▸ progress.cursor.current_mem_tokens⟩

theorem remaining_yields : Yields tokens remaining fun _ => True :=
  fun _ start => ⟨.moved start rfl, trivial⟩

theorem check_yields (kinds : List TokenKind) : Yields tokens (check kinds) fun _ => True :=
  fun _ start => ⟨.moved start rfl, trivial⟩

/-- The token that is passed is one of the tokens. -/
theorem advance_yields : Yields tokens advance (· ∈ tokens) := by
  intro progress start
  refine ⟨.moved ?_ rfl, start ▸ progress.cursor.current_mem_tokens⟩
  rw [Cursor.tokens_advance, start]

theorem skipNewlines_yields : Yields tokens skipNewlines fun _ => True := by
  intro progress start
  refine ⟨.moved ?_ rfl, trivial⟩
  rw [Cursor.tokens_skipNewlines, start]

theorem skipLine_yields : Yields tokens skipLine fun _ => True := by
  intro progress start
  refine ⟨.moved ?_ rfl, trivial⟩
  rw [Cursor.tokens_skipLine, start]

/-- An error may be reported at any of the tokens. -/
theorem report_yields {token : Token} (member : token ∈ tokens) (message : String) :
    Yields tokens (report token message) fun _ => True :=
  fun _ start => ⟨.reported message start member, trivial⟩

/-- A parser that gives up gives nothing, and reports an error at a token. -/
theorem fail_yields (message : String) {good : α → Prop} : Yields tokens (fail message) good :=
  fun progress start => .reported message start (start ▸ progress.cursor.current_mem_tokens)

/-- An accepted token is one of the tokens and of one of the kinds. -/
theorem accept_yields (kinds : List TokenKind) :
    Yields tokens (accept kinds) fun found =>
      ∀ token, found = some token → token ∈ tokens ∧ token.kind ∈ kinds := by
  intro progress start
  have looked : check kinds progress = .ok (kinds.contains progress.cursor.current.kind) progress :=
    rfl
  unfold accept
  rw [Action.bind_of_ok looked]
  by_cases listed : progress.cursor.current.kind ∈ kinds
  · rw [if_pos (by simpa using listed)]
    refine ⟨.moved ?_ rfl, ?_⟩
    · exact (progress.cursor.tokens_advance).trans start
    · intro token same
      cases same
      exact ⟨start ▸ progress.cursor.current_mem_tokens, listed⟩
  · rw [if_neg (by simpa using listed)]
    refine ⟨.moved start rfl, ?_⟩
    intro token absurdity
    cases absurdity

/-- An expected token is one of the tokens and of the kind. -/
theorem expect_yields (kind : TokenKind) (message : String) :
    Yields tokens (expect kind message) fun token => token ∈ tokens ∧ token.kind = kind := by
  intro progress start
  by_cases listed : progress.cursor.current.kind = kind
  · have taken : expect kind message progress = advance progress := by
      simp [expect, Action.bind_apply, check, listed]
    have moved := advance_yields progress start
    rw [taken]
    exact ⟨moved.1, moved.2, listed⟩
  · have refused : expect kind message progress = fail message progress := by
      simp [expect, Action.bind_apply, check, listed]
    have lost : Yields tokens (fail message : Parse Token) fun _ => True := fail_yields message
    rw [refused]
    exact lost progress start

theorem expectAll_yields (message : String) (kinds : List TokenKind) :
    Yields tokens (expectAll message kinds) fun _ => True := by
  induction kinds with
  | nil => exact Yields.pure trivial
  | cons kind rest inductionHypothesis =>
    exact (expect_yields kind message).bind fun _ _ => inductionHypothesis

theorem endLine_yields (message : String) : Yields tokens (endLine message) fun _ => True :=
  (expect_yields .newline message).bind fun _ _ => Yields.pure trivial

/-- Where parsing resumes after an error, nothing was given. -/
theorem recover_yields {item : Parse α} {good : α → Prop} (yields : Yields tokens item good) :
    Yields tokens (recover item) fun found => ∀ value, found = some value → good value := by
  intro progress start
  have ending := yields progress start
  unfold recover
  cases shape : item progress with
  | ok value reached =>
    rw [shape] at ending
    refine ⟨ending.1, ?_⟩
    intro other same
    cases same
    exact ending.2
  | error error reached =>
    rw [shape] at ending
    refine ⟨⟨?_, ending.placed⟩, ?_⟩
    · rw [Cursor.tokens_synchronize, ending.kept]
    · intro other absurdity
      cases absurdity

end Parse

/-! ### Well-formed trees -/

/-- Operators stand where they belong, and all literals can be printed. -/
def Expr.WellFormed : Expr → Prop
  | .literal value => value.isPrintable
  | .reference _ => True
  | .assign _ value => value.WellFormed
  | .unary operator operand => operator.kind ∈ Operator.prefixKinds ∧ operand.WellFormed
  | .binary left operator right =>
    operator.kind ∈ Operator.infixKinds ∧ left.WellFormed ∧ right.WellFormed
  | .logical left _ right => left.WellFormed ∧ right.WellFormed
  | .group inner => inner.WellFormed

/-- A well-formed expression can be printed. -/
theorem Expr.WellFormed.isPrintable {expr : Expr} (wellFormed : expr.WellFormed) :
    expr.isPrintable := by
  induction expr with
  | literal value => exact wellFormed
  | reference name => rfl
  | assign name value inductionHypothesis => exact inductionHypothesis wellFormed
  | unary operator operand inductionHypothesis => exact inductionHypothesis wellFormed.2
  | binary left operator right leftHypothesis rightHypothesis =>
    obtain ⟨_, leftFormed, rightFormed⟩ := wellFormed
    simp [Expr.isPrintable, leftHypothesis leftFormed, rightHypothesis rightFormed]
  | logical left operator right leftHypothesis rightHypothesis =>
    obtain ⟨leftFormed, rightFormed⟩ := wellFormed
    simp [Expr.isPrintable, leftHypothesis leftFormed, rightHypothesis rightFormed]
  | group inner inductionHypothesis => exact inductionHypothesis wellFormed

/-- The initializer of a declared name, if there is one, is well formed. -/
def Declarator.WellFormed (declarator : Declarator) : Prop :=
  ∀ expr, declarator.initializer = some expr → expr.WellFormed

mutual

/-- All expressions of a statement are well formed. -/
def Stmt.WellFormed : Stmt → Prop
  | .declare _ names => ∀ declarator ∈ names, declarator.WellFormed
  | .expression expr => expr.WellFormed
  | .print expr => expr.WellFormed
  | .scan _ _ => True
  | .branch _ condition thenBranch elseBranch =>
    condition.WellFormed ∧ thenBranch.WellFormed ∧ Stmt.ElseWellFormed elseBranch
  | .loop _ condition body => condition.WellFormed ∧ body.WellFormed
  | .block statements => Stmt.EachWellFormed statements

/-- The other branch of a conditional, if there is one, is well formed. -/
def Stmt.ElseWellFormed : Option Stmt → Prop
  | none => True
  | some statement => statement.WellFormed

/-- All of some statements are well formed. -/
def Stmt.EachWellFormed : List Stmt → Prop
  | [] => True
  | statement :: rest => statement.WellFormed ∧ Stmt.EachWellFormed rest

end

/-! #### Trees made of printable tokens -/

/-- The values that a tree may hold without a token for them can be printed. -/
theorem Expr.isPrintable_of_undenoted {value : Value} (member : value ∈ undenoted) :
    value.isPrintable := by
  simp only [undenoted, List.mem_cons, List.not_mem_nil, or_false] at member
  rcases member with rfl | rfl | rfl <;> rfl

section Printable

variable {tokens : List Token}
  (printable : ∀ token ∈ tokens, ∀ value, token.literal = some value → value.isPrintable)

include printable

/-- An expression made of printable tokens is well-formed. -/
theorem Expr.MadeOf.wellFormed {expr : Expr} (made : expr.MadeOf (· ∈ tokens)) :
    expr.WellFormed := by
  induction expr with
  | literal value =>
    rcases made with undenoted | ⟨token, member, denoted⟩
    · exact Expr.isPrintable_of_undenoted undenoted
    · exact printable token member value denoted
  | reference name => trivial
  | assign name value inductionHypothesis => exact inductionHypothesis made.2
  | unary operator operand inductionHypothesis => exact ⟨made.1.2, inductionHypothesis made.2⟩
  | binary left operator right leftHypothesis rightHypothesis =>
    obtain ⟨⟨_, listed⟩, leftMade, rightMade⟩ := made
    exact ⟨listed, leftHypothesis leftMade, rightHypothesis rightMade⟩
  | logical left operator right leftHypothesis rightHypothesis =>
    obtain ⟨_, leftMade, rightMade⟩ := made
    exact ⟨leftHypothesis leftMade, rightHypothesis rightMade⟩
  | group inner inductionHypothesis => exact inductionHypothesis made

/-- So is a declared name with its initializer. -/
theorem Declarator.MadeOf.wellFormed {declarator : Declarator}
    (made : declarator.MadeOf (· ∈ tokens)) : declarator.WellFormed :=
  fun expr present => (made.2 expr present).wellFormed printable

end Printable

namespace Stmt

mutual

/-- A statement made of printable tokens is well-formed, in all its parts. -/
theorem wellFormed_of_madeOf {tokens : List Token}
    (printable : ∀ token ∈ tokens, ∀ value, token.literal = some value → value.isPrintable) :
    ∀ {statement : Stmt}, statement.MadeOf (· ∈ tokens) → statement.WellFormed
  | .declare _ _, made => fun declarator member => (made.2 declarator member).wellFormed printable
  | .expression _, made => Expr.MadeOf.wellFormed printable made
  | .print _, made => Expr.MadeOf.wellFormed printable made
  | .scan _ _, _ => trivial
  | .branch _ _ _ _, ⟨_, conditionMade, thenMade, elseMade⟩ =>
    ⟨conditionMade.wellFormed printable, wellFormed_of_madeOf printable thenMade.2,
      elseWellFormed_of_madeOf printable elseMade⟩
  | .loop _ _ _, ⟨_, conditionMade, bodyMade⟩ =>
    ⟨conditionMade.wellFormed printable, wellFormed_of_madeOf printable bodyMade.2⟩
  | .block _, made => eachWellFormed_of_madeOf printable made

theorem elseWellFormed_of_madeOf {tokens : List Token}
    (printable : ∀ token ∈ tokens, ∀ value, token.literal = some value → value.isPrintable) :
    ∀ {elseBranch : Option Stmt}, ElseMadeOf (· ∈ tokens) elseBranch → ElseWellFormed elseBranch
  | none, _ => trivial
  | some _, made => wellFormed_of_madeOf printable made.2

theorem eachWellFormed_of_madeOf {tokens : List Token}
    (printable : ∀ token ∈ tokens, ∀ value, token.literal = some value → value.isPrintable) :
    ∀ {statements : List Stmt}, EachMadeOf (· ∈ tokens) statements → EachWellFormed statements
  | [], _ => trivial
  | _ :: _, ⟨made, restMade⟩ =>
    ⟨wellFormed_of_madeOf printable made, eachWellFormed_of_madeOf printable restMade⟩

end

end Stmt

/-! ### The parsers -/

section Parsers

open Parse

variable {tokens : List Token}

namespace Expr

/-- A chain is made of tokens if each of its nodes is, whatever has been parsed to the left. -/
theorem chainFrom_yields {operators : List TokenKind} {node : Expr → Token → Expr → Expr}
    {operand : Parse Expr}
    (builds : ∀ {left operator right}, left.MadeOf (· ∈ tokens) →
      operator ∈ tokens ∧ operator.kind ∈ operators → right.MadeOf (· ∈ tokens) →
      (node left operator right).MadeOf (· ∈ tokens))
    (operandYields : Yields tokens operand (MadeOf (· ∈ tokens))) (bound : Nat) {left : Expr}
    (leftMade : left.MadeOf (· ∈ tokens)) :
    Yields tokens (chainFrom operators node operand bound left) (MadeOf (· ∈ tokens)) := by
  induction bound generalizing left with
  | zero => exact Yields.pure leftMade
  | succ bound inductionHypothesis =>
    refine (accept_yields operators).bind fun found accepted => ?_
    cases found with
    | none => exact Yields.pure leftMade
    | some operator =>
      refine operandYields.bind fun right rightMade => inductionHypothesis ?_
      exact builds leftMade (accepted operator rfl) rightMade

theorem chain_yields {operators : List TokenKind} {node : Expr → Token → Expr → Expr}
    {operand : Parse Expr}
    (builds : ∀ {left operator right}, left.MadeOf (· ∈ tokens) →
      operator ∈ tokens ∧ operator.kind ∈ operators → right.MadeOf (· ∈ tokens) →
      (node left operator right).MadeOf (· ∈ tokens))
    (operandYields : Yields tokens operand (MadeOf (· ∈ tokens))) :
    Yields tokens (chain operators node operand) (MadeOf (· ∈ tokens)) := by
  refine operandYields.bind fun first firstMade => remaining_yields.bind fun bound _ => ?_
  exact chainFrom_yields builds operandYields bound firstMade

/-- A node of an infix operator is made of the tokens of its operands and of the operator. -/
theorem binary_madeOf {operators : List TokenKind} {left right : Expr} {operator : Token}
    (infixes : ∀ kind ∈ operators, kind ∈ Operator.infixKinds)
    (leftMade : left.MadeOf (· ∈ tokens)) (listed : operator ∈ tokens ∧ operator.kind ∈ operators)
    (rightMade : right.MadeOf (· ∈ tokens)) :
    (Expr.binary left operator right).MadeOf (· ∈ tokens) :=
  ⟨⟨listed.1, infixes _ listed.2⟩, leftMade, rightMade⟩

theorem logical_madeOf {operators : List TokenKind} {left right : Expr} {operator : Token}
    (connectives : ∀ kind ∈ operators, kind ∈ connectiveKinds)
    (leftMade : left.MadeOf (· ∈ tokens)) (listed : operator ∈ tokens ∧ operator.kind ∈ operators)
    (rightMade : right.MadeOf (· ∈ tokens)) :
    (Expr.logical left operator right).MadeOf (· ∈ tokens) :=
  ⟨⟨listed.1, connectives _ listed.2⟩, leftMade, rightMade⟩

section Factors

variable {factor : Parse Expr} (factorYields : Yields tokens factor (MadeOf (· ∈ tokens)))

include factorYields

/-- All levels of infix operators give trees made of tokens. -/
theorem disjunction_yields : Yields tokens (disjunction factor) (MadeOf (· ∈ tokens)) := by
  have products : Yields tokens (product factor) (MadeOf (· ∈ tokens)) :=
    chain_yields (binary_madeOf (by decide)) factorYields
  have sums : Yields tokens (sum factor) (MadeOf (· ∈ tokens)) :=
    chain_yields (binary_madeOf (by decide)) products
  have comparisons : Yields tokens (comparison factor) (MadeOf (· ∈ tokens)) :=
    chain_yields (binary_madeOf (by decide)) sums
  have equalities : Yields tokens (equality factor) (MadeOf (· ∈ tokens)) :=
    chain_yields (binary_madeOf (by decide)) comparisons
  have conjunctions : Yields tokens (conjunction factor) (MadeOf (· ∈ tokens)) :=
    chain_yields (logical_madeOf (by decide)) equalities
  exact chain_yields (logical_madeOf (by decide)) conjunctions

/-- An assignment is made of its name and its value. -/
theorem assignment_yields (bound : Nat) :
    Yields tokens (assignment factor bound) (MadeOf (· ∈ tokens)) := by
  induction bound with
  | zero => exact disjunction_yields factorYields
  | succ bound inductionHypothesis =>
    refine (disjunction_yields factorYields).bind fun target targetMade => ?_
    refine (accept_yields [.equal]).bind fun found accepted => ?_
    cases found with
    | none => exact Yields.pure targetMade
    | some equals =>
      refine inductionHypothesis.bind fun value valueMade => ?_
      split
      · exact Yields.pure ⟨targetMade, valueMade⟩
      · have member := (accepted equals rfl).1
        exact (report_yields member _).bind fun _ _ => Yields.pure targetMade

end Factors

/-- Factors are made of tokens, to any depth. -/
theorem factor_yields (bound : Nat) : Yields tokens (factor bound) (MadeOf (· ∈ tokens)) := by
  induction bound with
  | zero => exact fail_yields _
  | succ bound inductionHypothesis =>
    refine current_yields.bind fun token member => ?_
    have literalMade : (literal (token.literal.getD .null)).MadeOf (· ∈ tokens) := by
      cases denoted : token.literal with
      | none => exact .inl (by simp [undenoted])
      | some value => exact .inr ⟨token, member, denoted⟩
    split
    case h_1 _ kind | h_2 _ kind | h_3 _ kind =>
      have listed : token.kind ∈ Operator.prefixKinds := by
        rw [kind]
        decide
      refine advance_yields.bind fun _ _ => inductionHypothesis.bind fun operand made => ?_
      exact Yields.pure ⟨⟨member, listed⟩, made⟩
    case h_4 | h_5 | h_6 | h_7 | h_8 | h_9 =>
      exact advance_yields.bind fun _ _ => Yields.pure literalMade
    case h_10 | h_11 =>
      exact advance_yields.bind fun _ _ => Yields.pure (.inl (by simp [undenoted]))
    case h_12 _ kind => exact advance_yields.bind fun _ _ => Yields.pure ⟨member, kind⟩
    case h_13 =>
      refine advance_yields.bind fun _ _ => ?_
      refine (assignment_yields inductionHypothesis bound).bind fun inner made => ?_
      exact (expect_yields _ _).bind fun _ _ => Yields.pure made
    case h_14 => exact fail_yields _

/-- An expression is made of the tokens it was parsed from. -/
theorem parse_yields : Yields tokens Expr.parse (MadeOf (· ∈ tokens)) :=
  remaining_yields.bind fun bound _ => assignment_yields (factor_yields bound) bound

end Expr

namespace Stmt

theorem moreNames_yields (bound : Nat) :
    Yields tokens (moreNames bound) fun names =>
      ∀ name ∈ names, name ∈ tokens ∧ name.kind = .identifier := by
  induction bound with
  | zero => exact Yields.pure (List.forall_mem_nil _)
  | succ bound inductionHypothesis =>
    refine (accept_yields [.comma]).bind fun found _ => ?_
    cases found with
    | none => exact Yields.pure (List.forall_mem_nil _)
    | some comma =>
      refine (expect_yields _ _).bind fun name named => ?_
      refine inductionHypothesis.bind fun rest restNamed => Yields.pure ?_
      exact List.forall_mem_cons.mpr ⟨named, restNamed⟩

/-- A declared name is made of its token and those of its initializer. -/
theorem declarator_yields : Yields tokens declarator (Declarator.MadeOf (· ∈ tokens)) := by
  refine (expect_yields _ _).bind fun name named => (accept_yields _).bind fun found _ => ?_
  cases found with
  | none =>
    apply Yields.pure
    refine ⟨named, ?_⟩
    intro expr absurdity
    cases absurdity
  | some equals =>
    refine Expr.parse_yields.bind fun expr made => Yields.pure ⟨named, ?_⟩
    intro other same
    cases same
    exact made

theorem moreDeclarators_yields (bound : Nat) :
    Yields tokens (moreDeclarators bound) fun names =>
      ∀ declarator ∈ names, declarator.MadeOf (· ∈ tokens) := by
  induction bound with
  | zero => exact Yields.pure (List.forall_mem_nil _)
  | succ bound inductionHypothesis =>
    refine (accept_yields [.comma]).bind fun found _ => ?_
    cases found with
    | none => exact Yields.pure (List.forall_mem_nil _)
    | some comma =>
      refine declarator_yields.bind fun next nextMade => ?_
      refine inductionHypothesis.bind fun rest restMade => Yields.pure ?_
      exact List.forall_mem_cons.mpr ⟨nextMade, restMade⟩

theorem typeName_yields : Yields tokens typeName fun _ => True := by
  refine current_yields.bind fun token _ => ?_
  split
  · exact advance_yields.bind fun _ _ => Yields.pure trivial
  · exact fail_yields _

/-- A declaration is made of tokens. -/
theorem declaration_yields : Yields tokens declaration (MadeOf (· ∈ tokens)) := by
  refine (expect_yields _ _).bind fun _ _ => typeName_yields.bind fun type _ => ?_
  refine declarator_yields.bind fun first firstMade => ?_
  refine remaining_yields.bind fun bound _ => ?_
  refine (moreDeclarators_yields bound).bind fun others othersMade => ?_
  refine (endLine_yields _).bind fun _ _ => Yields.pure ⟨List.cons_ne_nil _ _, ?_⟩
  exact List.forall_mem_cons.mpr ⟨firstMade, othersMade⟩

theorem printing_yields : Yields tokens printing (MadeOf (· ∈ tokens)) := by
  refine (expect_yields _ _).bind fun _ _ => (expect_yields _ _).bind fun _ _ => ?_
  refine Expr.parse_yields.bind fun expr made => ?_
  exact (endLine_yields _).bind fun _ _ => Yields.pure made

theorem scanning_yields : Yields tokens scanning (MadeOf (· ∈ tokens)) := by
  refine (expect_yields _ _).bind fun _ _ => (expect_yields _ _).bind fun _ _ => ?_
  refine (expect_yields _ _).bind fun first named => remaining_yields.bind fun bound _ => ?_
  refine (moreNames_yields bound).bind fun others othersNamed => ?_
  refine (endLine_yields _).bind fun _ _ => Yields.pure ?_
  exact List.forall_mem_cons.mpr ⟨named, othersNamed⟩

theorem expressionLine_yields : Yields tokens expressionLine (MadeOf (· ∈ tokens)) := by
  refine Expr.parse_yields.bind fun expr made => ?_
  exact (endLine_yields _).bind fun _ _ => Yields.pure made

theorem condition_yields (header : String) :
    Yields tokens (condition header) (Expr.MadeOf (· ∈ tokens)) := by
  refine (expect_yields _ _).bind fun _ _ => ?_
  refine Expr.parse_yields.bind fun expr made => ?_
  refine (expect_yields _ _).bind fun _ _ => (endLine_yields _).bind fun _ _ => ?_
  exact Yields.pure made

/-- A clause of a loop that may be left out is made of tokens if it is there. -/
theorem clause_yields (closer : TokenKind) :
    Yields tokens (clause closer) fun found =>
      ∀ expr, found = some expr → expr.MadeOf (· ∈ tokens) := by
  refine (check_yields _).bind fun closed _ => ?_
  split
  · apply Yields.pure
    intro expr absurdity
    cases absurdity
  · refine Expr.parse_yields.bind fun expr made => Yields.pure ?_
    intro other same
    cases same
    exact made

/-! #### Runs of statements and the forms that hold them -/

section Nested

variable {item : Parse Stmt} (itemYields : Yields tokens item (MadeOf (· ∈ tokens)))

include itemYields

/-- One turn of the loop over statements gives a statement made of tokens, or none. -/
theorem round_yields :
    Yields tokens (round item) fun found => ∀ statement, found = some statement →
      statement.MadeOf (· ∈ tokens) := by
  refine (check_yields _).bind fun stray _ => ?_
  split
  · refine current_yields.bind fun token member => (report_yields member _).bind fun _ _ => ?_
    refine skipLine_yields.bind fun _ _ => Yields.pure ?_
    intro statement absurdity
    cases absurdity
  · exact recover_yields itemYields

theorem runFrom_yields (nesting : Nesting) (bound : Nat) :
    Yields tokens (runFrom nesting item bound) (EachMadeOf (· ∈ tokens)) := by
  induction bound with
  | zero => exact Yields.pure trivial
  | succ bound inductionHypothesis =>
    have atEndYields : Yields tokens (atEnd nesting) fun _ => True :=
      fun _ start => ⟨.moved start rfl, trivial⟩
    refine atEndYields.bind fun ended _ => ?_
    split
    · exact Yields.pure trivial
    · refine (round_yields itemYields).bind fun found foundMade => ?_
      refine skipNewlines_yields.bind fun _ _ => inductionHypothesis.bind fun rest restMade => ?_
      exact Yields.pure (eachMadeOf_append (eachMadeOf_toList foundMade) restMade)

/-- A run of statements is made of tokens. -/
theorem run_yields (nesting : Nesting) :
    Yields tokens (run nesting item) (EachMadeOf (· ∈ tokens)) := by
  refine skipNewlines_yields.bind fun _ _ => remaining_yields.bind fun bound _ => ?_
  exact runFrom_yields itemYields nesting bound

/-- What is parsed as a block is one, and made of tokens. -/
theorem blockOf_yields (form : TokenKind) :
    Yields tokens (blockOf item form) fun block => block.IsBlock ∧ block.MadeOf (· ∈ tokens) := by
  refine skipNewlines_yields.bind fun _ _ => (expect_yields _ _).bind fun _ _ => ?_
  refine (expect_yields _ _).bind fun _ _ => (endLine_yields _).bind fun _ _ => ?_
  refine (run_yields itemYields .inBlock).bind fun statements made => ?_
  refine (expect_yields _ _).bind fun _ _ => (expect_yields _ _).bind fun _ _ => ?_
  exact Yields.pure ⟨⟨statements, rfl⟩, made⟩

/-- What is parsed as a conditional is one, and made of tokens with all its branches. -/
theorem conditional_yields (bound : Nat) :
    Yields tokens (conditional item bound) fun statement =>
      statement.IsBranch ∧ statement.MadeOf (· ∈ tokens) := by
  induction bound with
  | zero => exact fail_yields _
  | succ bound inductionHypothesis =>
    refine (expect_yields _ _).bind fun keyword word => ?_
    have keyed : Keyed (· ∈ tokens) [.ifWord] (some keyword) :=
      ⟨keyword, rfl, word.1, by simp [word.2]⟩
    refine (condition_yields _).bind fun test testMade => ?_
    refine (blockOf_yields itemYields _).bind fun thenBranch thenMade => ?_
    refine (endLine_yields _).bind fun _ _ => skipNewlines_yields.bind fun _ _ => ?_
    refine (accept_yields _).bind fun found _ => ?_
    cases found with
    | none => exact Yields.pure ⟨⟨_, _, _, _, rfl⟩, keyed, testMade, thenMade, trivial⟩
    | some word =>
      refine (check_yields _).bind fun again _ => ?_
      split
      · refine inductionHypothesis.bind fun elseBranch elseMade => ?_
        exact Yields.pure ⟨⟨_, _, _, _, rfl⟩, keyed, testMade, thenMade, .inr elseMade.1, elseMade.2⟩
      · refine (endLine_yields _).bind fun _ _ => ?_
        refine (blockOf_yields itemYields _).bind fun elseBranch elseMade => ?_
        refine (endLine_yields _).bind fun _ _ => ?_
        exact Yields.pure ⟨⟨_, _, _, _, rfl⟩, keyed, testMade, thenMade, .inl elseMade.1, elseMade.2⟩

/-- A loop on a condition is made of tokens, the block it is built with included. -/
theorem repetition_yields : Yields tokens (repetition item) (MadeOf (· ∈ tokens)) := by
  refine (expect_yields _ _).bind fun keyword word => (expect_yields _ _).bind fun _ _ => ?_
  have keyed : Keyed (· ∈ tokens) [.forWord, .repeatWord] (some keyword) :=
    ⟨keyword, rfl, word.1, by simp [word.2]⟩
  refine (condition_yields _).bind fun test testMade => ?_
  refine (blockOf_yields itemYields _).bind fun body bodyMade => ?_
  exact (endLine_yields _).bind fun _ _ => Yields.pure ⟨keyed, testMade, bodyMade⟩

/-- So is a counting loop, all of whose clauses may be left out. -/
theorem counting_yields : Yields tokens (counting item) (MadeOf (· ∈ tokens)) := by
  refine (expect_yields _ _).bind fun keyword word => (expect_yields _ _).bind fun _ _ => ?_
  refine (clause_yields _).bind fun first firstMade => ?_
  refine (expect_yields _ _).bind fun _ _ => ?_
  refine (clause_yields _).bind fun test testMade => ?_
  refine (expect_yields _ _).bind fun _ _ => ?_
  refine (clause_yields _).bind fun last lastMade => ?_
  refine (expect_yields _ _).bind fun _ _ => (endLine_yields _).bind fun _ _ => ?_
  refine (blockOf_yields itemYields _).bind fun body bodyMade => ?_
  refine (endLine_yields _).bind fun _ _ => Yields.pure ?_
  exact forLoop_madeOf word firstMade testMade lastMade bodyMade.2

theorem statementOver_yields : Yields tokens (statementOver item) (MadeOf (· ∈ tokens)) := by
  refine current_yields.bind fun token _ => ?_
  split
  · exact fail_yields _
  · exact printing_yields
  · exact scanning_yields
  · refine remaining_yields.bind fun bound _ => ?_
    exact (conditional_yields itemYields bound).weaken And.right
  · exact repetition_yields itemYields
  · exact counting_yields itemYields
  · exact expressionLine_yields

end Nested

/-- Every statement is made of the tokens it was parsed from, to any depth. -/
theorem statement_yields (bound : Nat) : Yields tokens (statement bound) (MadeOf (· ∈ tokens)) := by
  induction bound with
  | zero => exact fail_yields _
  | succ bound inductionHypothesis => exact statementOver_yields inductionHypothesis

end Stmt

namespace Program

theorem header_yields : Yields tokens header fun _ => True := by
  refine skipNewlines_yields.bind fun _ _ => (expectAll_yields _ _).bind fun _ _ => ?_
  exact skipNewlines_yields.bind fun _ _ => expectAll_yields _ _

theorem footer_yields : Yields tokens footer fun _ => True := by
  refine (expectAll_yields _ _).bind fun _ _ => skipNewlines_yields.bind fun _ _ => ?_
  refine (check_yields _).bind fun ended _ => ?_
  split
  · exact Yields.pure trivial
  · exact fail_yields _

/-- The declarations that survive are made of tokens. -/
theorem declarationsFrom_yields (bound : Nat) :
    Yields tokens (declarationsFrom bound) (Stmt.EachMadeOf (· ∈ tokens)) := by
  induction bound with
  | zero => exact Yields.pure trivial
  | succ bound inductionHypothesis =>
    refine (check_yields _).bind fun more _ => ?_
    split
    · refine (recover_yields Stmt.declaration_yields).bind fun found made => ?_
      refine skipNewlines_yields.bind fun _ _ => inductionHypothesis.bind fun rest restMade => ?_
      exact Yields.pure (Stmt.eachMadeOf_append (Stmt.eachMadeOf_toList made) restMade)
    · exact Yields.pure trivial

/-- The statements of a program are made of the program's tokens. -/
theorem statements_yields : Yields tokens statements (Stmt.EachMadeOf (· ∈ tokens)) := by
  have declared : Yields tokens declarations (Stmt.EachMadeOf (· ∈ tokens)) :=
    skipNewlines_yields.bind fun _ _ => remaining_yields.bind fun bound _ =>
      declarationsFrom_yields bound
  refine header_yields.bind fun _ _ => declared.bind fun first firstMade => ?_
  refine Yields.bind (remaining_yields.bind fun bound _ =>
    Stmt.run_yields (Stmt.statement_yields bound) .topLevel) fun rest restMade => ?_
  refine footer_yields.bind fun _ _ => Yields.pure ?_
  exact Stmt.eachMadeOf_append firstMade restMade

/-- All syntax errors are at tokens of the program. -/
theorem token_mem_of_mem_errors (nonempty : tokens ≠ []) {error : SyntaxError}
    (member : error ∈ (parse tokens).errors) : error.token ∈ tokens := by
  obtain ⟨first, rest, rfl⟩ := List.exists_cons_of_ne_nil nonempty
  have yields := statements_yields (Progress.ofTokens (first :: rest)) rfl
  have placed : ∀ {reached : Progress},
      (Progress.ofTokens (first :: rest)).Within (first :: rest) reached →
      error ∈ reached.errors → error.token ∈ first :: rest := by
    intro reached within member
    rcases within.placed error member with earlier | later
    · cases earlier
    · exact later
  rw [parse_eq] at member
  cases ending : statements (Progress.ofTokens (first :: rest)) with
  | ok found reached =>
    rw [ending] at yields member
    exact placed yields.1 member
  | error error reached =>
    rw [ending] at yields member
    exact placed yields member

/-- An accepted program is made of its tokens. -/
theorem parse_madeOf {program : List Stmt} (parsed : (parse tokens).program = some program) :
    Stmt.EachMadeOf (· ∈ tokens) program := by
  obtain ⟨reached, ending⟩ := statements_of_parse parsed
  cases tokens with
  | nil => cases parsed
  | cons first rest =>
    have yields := statements_yields (Progress.ofTokens (first :: rest)) rfl
    rw [ending] at yields
    exact yields.2

/-- An accepted program is well formed if its tokens can be printed. -/
theorem parse_wellFormed {program : List Stmt}
    (printable : ∀ token ∈ tokens, ∀ value, token.literal = some value → value.isPrintable)
    (parsed : (parse tokens).program = some program) :
    Stmt.EachWellFormed program :=
  Stmt.eachWellFormed_of_madeOf printable (parse_madeOf parsed)

/-- A parsed program is a run of declarations, and behind them statements in which nothing is
declared, however deep. Its tokens are tokens of the text that stand where they belong: branches and
bodies are blocks, another branch may also be a conditional, conditionals and loops keep their
keywords, and all declared or read names are identifiers. -/
theorem parse_shape {program : List Stmt} (parsed : (parse tokens).program = some program) :
    ∃ declarations statements, program = declarations ++ statements ∧ Declaring declarations ∧
      Stmt.EachExecutable statements ∧ Stmt.EachMadeOf (· ∈ tokens) program := by
  obtain ⟨declarations, statements, whole, declaring, executable⟩ := (parse_ordered parsed).split
  exact ⟨declarations, statements, whole, declaring, executable, parse_madeOf parsed⟩

end Program

end Parsers

/-- A script with a conditional as another branch, inside a counted loop. -/
def countingSource : String :=
  "SCRIPT AREA\nSTART SCRIPT\nDECLARE INT i, n = -1\nFOR (i = 0, i < 3, i = i + 1)\nSTART FOR\n" ++
    "IF (NOT (i == n))\nSTART IF\nSCAN: n\nEND IF\nELSE IF (i > n OR FALSE)\nSTART IF\n" ++
    "PRINT: i & n\nEND IF\nEND FOR\nEND SCRIPT\n"

theorem countingSource_shape :
    ∃ program, (Program.parse (lex countingSource).tokens).program = some program ∧
      ∃ declarations statements, program = declarations ++ statements ∧
        Program.Declaring declarations ∧ Stmt.EachExecutable statements ∧
        Stmt.EachMadeOf (· ∈ (lex countingSource).tokens) program := by
  have accepted : (Program.parse (lex countingSource).tokens).program.isSome := by decide +kernel
  obtain ⟨program, parsed⟩ := Option.isSome_iff_exists.mp accepted
  exact ⟨program, parsed, Program.parse_shape parsed⟩

end LineScript
