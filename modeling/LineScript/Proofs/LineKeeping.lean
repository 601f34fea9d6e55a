/-
Module: LineScript.Proofs.LineKeeping
Purpose: The parsers of one-line statements pass nothing behind their line, and report nothing
  there.
Trusted boundary: none
Main exports: OnLine, Stranded, KeepsToLine, ClosesLine, passing_keepsToLine
-/
import LineScript.Proofs.ParserWalk
import LineScript.Stmt.Parse

/-!
A statement without nested statements is written on one line. Its parser passes tokens of that line
only, the newline as the last one; where it gives up, the token it has stopped at is still on the
line. All errors it reports are at tokens that it has passed or has stopped at.
-/

namespace LineScript

open Parse

/-- None of the tokens passed ends a line, and the errors reported are at the given tokens. -/
structure OnLine (passed : List Token) (reported : List SyntaxError) (places : List Token) :
    Prop where
  inside : ∀ token ∈ passed, ¬ token.kind.EndsLine
  placed : ∀ error ∈ reported, error.token ∈ places

/-- Nothing is on every line. -/
theorem OnLine.nil : OnLine [] [] [] :=
  ⟨by simp, by simp⟩

/-- What two parsers pass and report, one after the other, is on the line if both parts are. -/
theorem OnLine.append {first second near far : List Token} {earlier later : List SyntaxError}
    (before : OnLine first earlier near) (behind : OnLine second later far) :
    OnLine (first ++ second) (earlier ++ later) (near ++ far) where
  inside := by
    intro token member
    rcases List.mem_append.mp member with inFirst | inSecond
    · exact before.inside token inFirst
    · exact behind.inside token inSecond
  placed := by
    intro error member
    rcases List.mem_append.mp member with inEarlier | inLater
    · exact List.mem_append_left far (before.placed error inEarlier)
    · exact List.mem_append_right near (behind.placed error inLater)

/-- A single token that was passed without an error. -/
theorem OnLine.token {token : Token} (inside : ¬ token.kind.EndsLine) :
    OnLine [token] [] [token] where
  inside := by
    intro other member
    rwa [List.mem_singleton.mp member]
  placed := by simp

/-- Where a parser gave up: it has reported so, and everything it has reported is on the line. -/
def Stranded (passed : List Token) (stopped : Token) (reported : List SyntaxError) : Prop :=
  reported ≠ [] ∧ OnLine passed reported (passed ++ [stopped])

/-- An error at the token where the parser stopped. -/
theorem stranded_at (stopped : Token) (message : String) :
    Stranded [] stopped [⟨stopped, message⟩] :=
  ⟨by simp, by simp, by simp⟩

/-- A parser that is stranded behind others is stranded behind what these have passed. -/
theorem Stranded.behind {front passed : List Token} {stopped : Token}
    {earlier reported : List SyntaxError} (before : OnLine front earlier front)
    (stranded : Stranded passed stopped reported) :
    Stranded (front ++ passed) stopped (earlier ++ reported) := by
  obtain ⟨reports, onLine⟩ := stranded
  constructor
  · exact List.append_ne_nil_of_right_ne_nil earlier reports
  · rw [List.append_assoc]
    exact before.append onLine

namespace Parse

variable {α β : Type}

/-- The parser passes nothing that ends a line, and reports errors on the line only. -/
def KeepsToLine (parser : Parse α) : Prop :=
  Walks parser (fun _ passed reported => OnLine passed reported passed) Stranded

/-- The parser passes a line to its end, and reports errors on the line only. -/
def ClosesLine (parser : Parse α) : Prop :=
  Walks parser
    (fun _ passed reported => ∃ front newline, passed = front ++ [newline] ∧
      newline.kind = .newline ∧ OnLine front reported passed)
    Stranded

/-- Giving a value passes nothing. -/
theorem KeepsToLine.pure (value : α) : KeepsToLine (Pure.pure value : Parse α) :=
  Walks.pure OnLine.nil

/-- Two parsers that keep to the line keep to it one after the other. -/
theorem KeepsToLine.bind {parser : Parse α} {next : α → Parse β} (first : KeepsToLine parser)
    (second : ∀ value, KeepsToLine (next value)) : KeepsToLine (parser >>= next) := by
  apply Walks.bind first
  intro value front earlier before
  apply (second value).weaken
  · intro result passed reported behind
    exact before.append behind
  · intro passed stopped reported stranded
    exact stranded.behind before

/-- A parser that keeps to the line, followed by one that closes it, closes it. -/
theorem KeepsToLine.then_close {parser : Parse α} {next : α → Parse β} (first : KeepsToLine parser)
    (second : ∀ value, ClosesLine (next value)) : ClosesLine (parser >>= next) := by
  apply Walks.bind first
  intro value front earlier before
  apply (second value).weaken
  · rintro result passed reported ⟨rest, newline, rfl, breaks, behind⟩
    refine ⟨front ++ rest, newline, (List.append_assoc _ _ _).symm, breaks, ?_⟩
    exact before.append behind
  · intro passed stopped reported stranded
    exact stranded.behind before

theorem KeepsToLine.counting {next : Nat → Parse α} (keeps : ∀ bound, KeepsToLine (next bound)) :
    KeepsToLine (remaining >>= next) :=
  Walks.counting keeps

theorem ClosesLine.counting {next : Nat → Parse α} (closes : ∀ bound, ClosesLine (next bound)) :
    ClosesLine (remaining >>= next) :=
  Walks.counting closes

/-- A parser that gives up reports its error at the current token and passes nothing. -/
theorem fail_keepsToLine (message : String) : KeepsToLine (fail message : Parse α) :=
  fail_walks message fun stopped => stranded_at stopped message

/-- A token that ends no line is passed on the line, or is missed on it. -/
theorem expect_keepsToLine {kind : TokenKind} (message : String) (inside : ¬ kind.EndsLine) :
    KeepsToLine (expect kind message) := by
  have notLast : kind ≠ .eof := fun last => inside (.inr last)
  apply (expect_walks message notLast fun stopped => stranded_at stopped message).weaken
  · rintro token passed reported ⟨rfl, rfl, rfl⟩
    exact OnLine.token inside
  · intro passed stopped reported stranded
    exact stranded

theorem accept_keepsToLine {kinds : List TokenKind} (inside : ∀ kind ∈ kinds, ¬ kind.EndsLine) :
    KeepsToLine (accept kinds) := by
  have notLast : .eof ∉ kinds := fun last => inside _ last (.inr rfl)
  apply (accept_walks notLast).weaken
  · rintro found passed reported ⟨rfl, shape⟩
    cases found with
    | none => exact shape ▸ OnLine.nil
    | some token =>
      obtain ⟨listed, rfl⟩ := shape
      exact OnLine.token (inside _ listed)
  · intro passed stopped reported stranded
    exact stranded

/-- A token of the line, and a parser that keeps to the line. -/
theorem passing_keepsToLine {start : Progress} {next : Parse α} (closed : start.cursor.Closed)
    (inside : ¬ start.cursor.current.kind.EndsLine) (keeps : KeepsToLine next) :
    WalksFrom start (do let _ ← advance; next)
      (fun _ passed reported => OnLine passed reported passed) Stranded := by
  have token := OnLine.token inside
  apply WalksFrom.passing closed fun last => inside (.inr last)
  apply keeps.weaken
  · intro value passed reported behind
    exact token.append behind
  · intro passed stopped reported stranded
    exact stranded.behind token

/-- The newline that ends a statement closes the line. -/
theorem endLine_closesLine (message : String) : ClosesLine (endLine message) := by
  apply Walks.bind (expect_walks message (by decide) fun stopped => stranded_at stopped message)
  rintro newline front earlier ⟨breaks, rfl, rfl⟩
  apply Walks.pure
  exact ⟨[], newline, rfl, breaks, by simp, by simp⟩

theorem ClosesLine.map {parser : Parse α} (closes : ClosesLine parser) (result : α → β) :
    ClosesLine (do let value ← parser; return result value) := by
  apply Walks.bind closes
  intro value front earlier closed
  apply Walks.pure
  simpa using closed

end Parse

/-! ### Expressions -/

namespace Expr

section Levels

variable {factor : Parse Expr} (factorKeeps : KeepsToLine factor)

include factorKeeps

/-- A chain keeps to the line, since no operator ends one. -/
theorem chainFrom_keepsToLine {operators : List TokenKind}
    (inside : ∀ kind ∈ operators, ¬ kind.EndsLine) (node : Expr → Token → Expr → Expr)
    (bound : Nat) (left : Expr) :
    KeepsToLine (chainFrom operators node factor bound left) := by
  induction bound generalizing left with
  | zero => exact KeepsToLine.pure left
  | succ bound inductionHypothesis =>
    apply (accept_keepsToLine inside).bind
    intro found
    cases found with
    | none => exact KeepsToLine.pure left
    | some operator =>
      apply factorKeeps.bind
      intro right
      exact inductionHypothesis _

theorem chain_keepsToLine {operators : List TokenKind} {node : Expr → Token → Expr → Expr}
    (inside : ∀ kind ∈ operators, ¬ kind.EndsLine) :
    KeepsToLine (chain operators node factor) := by
  apply factorKeeps.bind
  intro first
  apply KeepsToLine.counting
  intro bound
  exact chainFrom_keepsToLine factorKeeps inside node bound first

theorem disjunction_keepsToLine : KeepsToLine (disjunction factor) := by
  have products : KeepsToLine (product factor) := chain_keepsToLine factorKeeps (by decide)
  have sums : KeepsToLine (sum factor) := chain_keepsToLine products (by decide)
  have comparisons : KeepsToLine (comparison factor) := chain_keepsToLine sums (by decide)
  have equalities : KeepsToLine (equality factor) := chain_keepsToLine comparisons (by decide)
  have conjunctions : KeepsToLine (conjunction factor) := chain_keepsToLine equalities (by decide)
  exact chain_keepsToLine conjunctions (by decide)

/-- Assignments keep to the line. -/
theorem assignment_keepsToLine (bound : Nat) : KeepsToLine (assignment factor bound) := by
  have targets := disjunction_keepsToLine factorKeeps
  induction bound with
  | zero => exact targets
  | succ bound inductionHypothesis =>
    apply targets.bind
    intro target
    -- A bad target is reported at the sign behind it, so the sign has to be kept in view.
    apply Walks.bind (accept_walks (by decide))
    rintro found front earlier ⟨rfl, shape⟩
    cases found with
    | none =>
      subst shape
      exact Walks.pure OnLine.nil
    | some sign =>
      obtain ⟨listed, rfl⟩ := shape
      have signInside : OnLine [sign] [] [sign] :=
        OnLine.token (by rw [List.mem_singleton.mp listed]; decide)
      have valueWalks : Walks (assignment factor bound)
          (fun _ passed reported => OnLine ([sign] ++ passed) ([] ++ reported) ([sign] ++ passed))
          fun passed stopped reported => Stranded ([sign] ++ passed) stopped ([] ++ reported) := by
        apply inductionHypothesis.weaken
        · intro value passed reported behind
          exact signInside.append behind
        · intro passed stopped reported stranded
          exact stranded.behind signInside
      apply valueWalks.bind
      intro value behind later onLine
      cases target with
      | reference name =>
        apply Walks.pure
        simpa using onLine
      | literal | assign | unary | binary | logical | group =>
        apply Walks.bind (report_walks sign _)
        rintro _ nothing report ⟨rfl, rfl⟩
        apply Walks.pure
        constructor
        · simpa using onLine.inside
        · intro error member
          simp only [List.nil_append, List.append_nil, List.mem_append, List.mem_singleton]
            at member
          rcases member with reported | rfl
          · simpa using onLine.placed error reported
          · simp

end Levels

/-- Factors keep to the line, to any depth. -/
theorem factor_keepsToLine (bound : Nat) : KeepsToLine (factor bound) := by
  induction bound with
  | zero => exact fail_keepsToLine _
  | succ bound inductionHypothesis =>
    apply Walks.looking
    intro start closed
    split
    case h_1 _ kind | h_2 _ kind | h_3 _ kind =>
      apply passing_keepsToLine closed (by rw [kind]; decide)
      exact inductionHypothesis.bind fun operand => KeepsToLine.pure _
    case h_4 _ kind | h_5 _ kind | h_6 _ kind | h_7 _ kind | h_8 _ kind | h_9 _ kind |
        h_10 _ kind | h_11 _ kind | h_12 _ kind =>
      apply passing_keepsToLine closed (by rw [kind]; decide)
      exact KeepsToLine.pure _
    case h_13 _ kind =>
      apply passing_keepsToLine closed (by rw [kind]; decide)
      apply (assignment_keepsToLine inductionHypothesis bound).bind
      intro inner
      apply (expect_keepsToLine _ (by decide)).bind
      intro closing
      exact KeepsToLine.pure _
    case h_14 => exact fail_keepsToLine _ start closed

/-- An expression keeps to the line. -/
theorem parse_keepsToLine : KeepsToLine parse :=
  KeepsToLine.counting fun bound => assignment_keepsToLine (factor_keepsToLine bound) bound

end Expr

/-! ### Statements of one line -/

namespace Stmt

theorem moreNames_keepsToLine (bound : Nat) : KeepsToLine (moreNames bound) := by
  induction bound with
  | zero => exact KeepsToLine.pure []
  | succ bound inductionHypothesis =>
    apply (accept_keepsToLine (by decide)).bind
    intro found
    cases found with
    | none => exact KeepsToLine.pure []
    | some comma =>
      apply (expect_keepsToLine _ (by decide)).bind
      intro name
      exact inductionHypothesis.bind fun rest => KeepsToLine.pure _

/-- A declared name keeps to the line with its initializer. -/
theorem declarator_keepsToLine : KeepsToLine declarator := by
  apply (expect_keepsToLine _ (by decide)).bind
  intro name
  apply (accept_keepsToLine (by decide)).bind
  intro found
  cases found with
  | none => exact KeepsToLine.pure _
  | some sign => exact Expr.parse_keepsToLine.bind fun expr => KeepsToLine.pure _

theorem moreDeclarators_keepsToLine (bound : Nat) : KeepsToLine (moreDeclarators bound) := by
  induction bound with
  | zero => exact KeepsToLine.pure []
  | succ bound inductionHypothesis =>
    apply (accept_keepsToLine (by decide)).bind
    intro found
    cases found with
    | none => exact KeepsToLine.pure []
    | some comma =>
      apply declarator_keepsToLine.bind
      intro next
      exact inductionHypothesis.bind fun rest => KeepsToLine.pure _

theorem typeName_keepsToLine : KeepsToLine typeName := by
  apply Walks.looking
  intro start closed
  split
  case h_1 type kind =>
    exact passing_keepsToLine closed (by simp [kind, TokenKind.EndsLine]) (KeepsToLine.pure type)
  case h_2 => exact fail_keepsToLine _ start closed

/-- A declaration closes its line. -/
theorem declaration_closesLine : ClosesLine declaration := by
  apply (expect_keepsToLine _ (by decide)).then_close
  intro keyword
  apply typeName_keepsToLine.then_close
  intro type
  apply declarator_keepsToLine.then_close
  intro first
  apply ClosesLine.counting
  intro bound
  apply (moreDeclarators_keepsToLine bound).then_close
  intro others
  exact (endLine_closesLine _).map _

/-- A statement that prints closes its line. -/
theorem printing_closesLine : ClosesLine printing := by
  apply (expect_keepsToLine _ (by decide)).then_close
  intro keyword
  apply (expect_keepsToLine _ (by decide)).then_close
  intro colon
  apply Expr.parse_keepsToLine.then_close
  intro expr
  exact (endLine_closesLine _).map _

/-- A statement that reads closes its line. -/
theorem scanning_closesLine : ClosesLine scanning := by
  apply (expect_keepsToLine _ (by decide)).then_close
  intro keyword
  apply (expect_keepsToLine _ (by decide)).then_close
  intro colon
  apply (expect_keepsToLine _ (by decide)).then_close
  intro first
  apply ClosesLine.counting
  intro bound
  apply (moreNames_keepsToLine bound).then_close
  intro others
  exact (endLine_closesLine _).map _

/-- An expression that stands as a statement closes its line. -/
theorem expressionLine_closesLine : ClosesLine expressionLine := by
  apply Expr.parse_keepsToLine.then_close
  intro expr
  exact (endLine_closesLine _).map _

end Stmt

end LineScript
