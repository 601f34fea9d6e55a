/-
Module: LineScript.Proofs.ParserTermination
Purpose: Parsing keeps to its tokens, goes further with every turn of its loops, and ends.
Trusted boundary: none
Main exports: Finishes, Part, ParsesForward, parseRun_eq, parse_goes_forward
-/
import LineScript.Proofs.ParserRecursion

/-!
Statements contain statements behind the keyword they start with, and whatever a statement is, it
passes a token. So both loops over lines go further with every turn, and the recursion of nested
statements, of the branches of a conditional, of lists and of expressions goes further with every
call. There is nothing else that a parser could go on with for ever. So parsing ends on all tokens
of which the last one, and no other, ends the text, whatever stands in front of it.
-/

namespace LineScript

open Parse Progress

namespace Parse

variable {α : Type}

/-! ### Loops over lines -/

/-- A line, if the loop is to go on, with the blank lines behind it. -/
def linesStep (more : Cursor → Bool) (line : Parse (Option α)) (again : Parse (List α)) :
    Parse (List α) := do
  if more (← get).cursor then
    let found ← turn line
    let rest ← again
    return found.toList ++ rest
  else
    return []

/-- The parser finds something wherever it starts, and leaves a place where the condition holds. -/
def Finishes (parser : Parse α) (condition : Cursor → Prop) : Prop :=
  ∀ start : Progress, EndsOnce start.cursor.kinds → ∃ found reached,
    parser start = .ok found reached ∧ start.Steps reached ∧ condition reached.cursor

/-- Blank lines in front change nothing. -/
theorem Finishes.behind_blank {parser : Parse α} {condition : Cursor → Prop}
    (finishes : Finishes parser condition) :
    Finishes (do skipNewlines; parser) condition := by
  intro start ended
  have blank := skipNewlines_goes start ended
  obtain ⟨found, reached, ending, steps, holds⟩ := finishes _ (Steps.endsOnce blank ended)
  exact ⟨found, reached, ending, Relation.ReflTransGen.trans blank steps, holds⟩

section Lines

variable {more : Cursor → Bool} {line : Parse (Option α)} {again : Parse (List α)}
  {start middle : Progress}

/-- The loop is over where it should not go on. -/
theorem linesStep_of_stop (stop : more start.cursor = false) :
    linesStep more line again start = .ok [] start := by
  simp [linesStep, Action.bind_apply, stop]

/-- Otherwise it takes one turn and starts again behind it. -/
theorem linesStep_of_more (goesOn : more start.cursor = true) {found : Option α}
    (turned : turn line start = .ok found middle) :
    linesStep more line again start = (do return found.toList ++ (← again)) middle := by
  simp only [linesStep, Action.bind_apply, Action.get_apply, goesOn, if_true, turned]

variable (advances : ∀ start, EndsOnce start.cursor.kinds → more start.cursor = true →
  Advances line start)

include advances

/-- A loop over lines may have any bound that is not below the tokens left, since every turn passes
one. -/
theorem lines_bounded {bounded : Nat → Parse (List α)} (goes : ∀ bound, Goes (bounded bound))
    (unfolds : ∀ bound, bounded (bound + 1) = linesStep more line (bounded bound)) :
    Bounded (fun nested (_ : Unit) => linesStep more line (nested ())) fun bound _ =>
      bounded bound where
  goes := fun bound _ => goes bound
  unfolds := fun bound _ start _ _ => by rw [unfolds]
  guarded := by
    intro start nested loop ended alike _
    cases goesOn : more start.cursor with
    | false => rw [linesStep_of_stop goesOn, linesStep_of_stop goesOn]
    | true =>
      obtain ⟨found, middle, turned, further⟩ := (advances start ended goesOn).turn ended
      rw [linesStep_of_more goesOn turned, linesStep_of_more goesOn turned]
      have rest := (alike () middle further).bind fun rest =>
        (Goes.pure (found.toList ++ rest)).alike
      exact (rest middle .refl (further.steps.endsOnce ended)).same

/-- The loop ends where its test fails, and not before. -/
theorem RecursesForward.finishes_lines {lines : Parse (List α)}
    (recurses : RecursesForward (linesStep more line) lines) :
    Finishes lines fun cursor => more cursor = false := by
  intro start ended
  -- By induction on the tokens left, of which every turn leaves fewer.
  induction left : start.cursor.remaining using Nat.strong_induction_on generalizing start with
  | _ left inductionHypothesis =>
    rw [recurses.unfold ended]
    cases goesOn : more start.cursor with
    | false => exact ⟨[], start, linesStep_of_stop goesOn, .refl, goesOn⟩
    | true =>
      obtain ⟨found, middle, turned, further⟩ := (advances start ended goesOn).turn ended
      obtain ⟨rest, reached, ending, steps, stop⟩ := inductionHypothesis _
        (left ▸ further.remaining_lt) middle (further.steps.endsOnce ended) rfl
      refine ⟨found.toList ++ rest, reached, ?_, further.steps.trans steps, stop⟩
      rw [linesStep_of_more goesOn turned, Action.bind_of_ok ending]
      rfl

end Lines

/-- Recovery only looks at what the parser inside has come to, so that alike parsers stay alike. -/
theorem recover_alike {origin : Progress} {item other : Parse α}
    (items : AlikeFrom origin item other) : AlikeFrom origin (recover item) (recover other) := by
  intro start leads ended
  obtain ⟨same, ends⟩ := items start leads ended
  refine ⟨by rw [recover, recover, same], ?_⟩
  unfold recover
  cases ending : other start with
  | ok value reached =>
    rw [ending] at ends
    exact ends
  | error error reached =>
    rw [ending] at ends
    have steps : start.Steps reached := ends
    exact steps.trans (steps_synchronize (steps.endsOnce ended))

end Parse

/-! ### Statements -/

namespace Stmt

/-- One more item of a list separated by commas. -/
def moreStep {α : Type} (item : Parse α) (again : Parse (List α)) : Parse (List α) := do
  match ← accept [.comma] with
  | none => return []
  | some _ =>
    let next ← item
    let rest ← again
    return next :: rest

/-- A list with commas may have any such bound too, since every further item is behind a comma. -/
theorem moreStep_bounded {α : Type} {item : Parse α} (itemGoes : Goes item)
    {bounded : Nat → Parse (List α)} (goes : ∀ bound, Goes (bounded bound))
    (unfolds : ∀ bound, bounded (bound + 1) = moreStep item (bounded bound)) :
    Bounded (fun nested (_ : Unit) => moreStep item (nested ())) fun bound _ =>
      bounded bound where
  goes := fun bound _ => goes bound
  unfolds := fun bound _ start _ _ => by rw [unfolds]
  guarded := by
    intro start nested loop ended alike _
    refine (accept_alike (by decide) ended (.pure []) fun comma => ?_).same
    intro later further
    apply itemGoes.then_alike
    intro next
    exact (alike () later further).bind fun rest => (Goes.pure _).alike

/-- The names behind a comma recurse forward. -/
theorem moreNames_recursesForward :
    RecursesForward (moreStep (expect .identifier "Expected variable name"))
      (do moreNames (← remaining)) :=
  .of_bounded (moreStep_bounded (expect_goes _ _) (fun bound => (moreNames_blamesOnce bound).goes)
    fun _ => rfl)

/-- So do the declarators behind a comma. -/
theorem moreDeclarators_recursesForward :
    RecursesForward (moreStep declarator) (do moreDeclarators (← remaining)) :=
  .of_bounded (moreStep_bounded declarator_blamesOnce.goes
    (fun bound => (moreDeclarators_blamesOnce bound).goes) fun _ => rfl)

/-- A conditional with another one for its other branch. -/
def conditionalStep (item again : Parse Stmt) : Parse Stmt := do
  let keyword ← expect .ifWord "Expected 'IF'"
  let test ← condition "IF"
  let thenBranch ← blockOf item .ifWord
  endLine "Expected newline after 'END IF'"
  skipNewlines
  match ← accept [.elseWord] with
  | none => return .branch (some keyword) test thenBranch none
  | some _ =>
    if ← check [.ifWord] then
      let elseBranch ← again
      return .branch (some keyword) test thenBranch (some elseBranch)
    else
      endLine "Expected newline after 'ELSE'"
      let elseBranch ← blockOf item .ifWord
      endLine "Expected newline after 'END IF'"
      return .branch (some keyword) test thenBranch (some elseBranch)

section Nested

variable {item other : Parse Stmt}

section From

variable {origin : Progress} (items : AlikeFrom origin item other)

include items

/-- A turn of a run calls the parser for statements once. -/
theorem round_alike : AlikeFrom origin (round item) (round other) := by
  apply (check_goes [.endWord]).then_alike
  intro stray
  cases stray with
  | true =>
    apply current_goes.then_alike
    intro token
    apply (report_goes token _).then_alike
    intro _
    exact skipLine_goes.then_alike fun _ => (Goes.pure _).alike
  | false => exact recover_alike items

/-- With alike parsers for the statements, runs of statements are alike. -/
theorem runFrom_alike (nesting : Nesting) (bound : Nat) :
    AlikeFrom origin (runFrom nesting item bound) (runFrom nesting other bound) := by
  induction bound with
  | zero => exact (Goes.pure []).alike
  | succ bound inductionHypothesis =>
    have looks : Goes (atEnd nesting) := fun _ _ => .refl
    apply looks.then_alike
    intro stop
    cases stop with
    | true => exact (Goes.pure []).alike
    | false =>
      apply (round_alike items).bind
      intro found
      apply skipNewlines_goes.then_alike
      intro _
      exact inductionHypothesis.bind fun rest => (Goes.pure _).alike

theorem run_alike (nesting : Nesting) : AlikeFrom origin (run nesting item) (run nesting other) :=
  skipNewlines_goes.then_alike fun _ =>
    remaining_goes.then_alike fun bound => runFrom_alike items nesting bound

/-- A block hands the parser for statements to its run. -/
theorem blockOf_alike (form : TokenKind) :
    AlikeFrom origin (blockOf item form) (blockOf other form) := by
  apply skipNewlines_goes.then_alike
  intro _
  apply (expect_goes _ _).then_alike
  intro opening
  apply (expect_goes _ _).then_alike
  intro opened
  apply (endLine_goes _).then_alike
  intro _
  apply (run_alike items .inBlock).bind
  intro statements
  apply (expect_goes _ _).then_alike
  intro closing
  exact (expect_goes _ _).then_alike fun _ => (Goes.pure _).alike

end From

/-- A conditional contains statements and other conditionals behind its keyword. -/
theorem conditionalStep_alike {again others : Parse Stmt} {start : Progress}
    (ended : EndsOnce start.cursor.kinds) (items : AlikeBehind start item other)
    (branches : AlikeBehind start again others) :
    Alike start start.Further (conditionalStep item again) (conditionalStep other others) := by
  apply (expect_strides _ (by decide)).then_alike ended
  intro keyword later further
  have blocks := blockOf_alike (items later further) .ifWord
  apply (condition_blamesOnce _).goes.then_alike
  intro test
  apply blocks.bind
  intro thenBranch
  apply (endLine_goes _).then_alike
  intro _
  apply skipNewlines_goes.then_alike
  intro _
  apply (accept_goes _).then_alike
  intro found
  cases found with
  | none => exact (Goes.pure _).alike
  | some word =>
    apply (check_goes _).then_alike
    intro chained
    cases chained with
    | true => exact (branches later further).bind fun elseBranch => (Goes.pure _).alike
    | false =>
      apply (endLine_goes _).then_alike
      intro _
      apply blocks.bind
      intro elseBranch
      exact (endLine_goes _).then_alike fun _ => (Goes.pure _).alike

/-- Behind the keyword IF: the statements inside start further on than the conditional itself. -/
theorem conditional_alike {start : Progress} (ended : EndsOnce start.cursor.kinds)
    (items : AlikeBehind start item other) (bound : Nat) :
    Alike start start.Further (conditional item bound) (conditional other bound) := by
  induction bound generalizing start with
  | zero => exact .fail _
  | succ bound inductionHypothesis =>
    have branches : AlikeBehind start (conditional item bound) (conditional other bound) := by
      intro later further last steps still
      have behind := further.trans_steps steps
      exact (inductionHypothesis still (items.onward behind.steps)).weaken fun _ => Further.steps
    exact conditionalStep_alike ended items branches

theorem repetition_alike {start : Progress} (ended : EndsOnce start.cursor.kinds)
    (items : AlikeBehind start item other) :
    Alike start start.Further (repetition item) (repetition other) := by
  apply (expect_strides _ (by decide)).then_alike ended
  intro keyword later further
  apply (expect_goes _ _).then_alike
  intro word
  apply (condition_blamesOnce _).goes.then_alike
  intro test
  apply (blockOf_alike (items later further) _).bind
  intro body
  exact (endLine_goes _).then_alike fun _ => (Goes.pure _).alike

theorem counting_alike {start : Progress} (ended : EndsOnce start.cursor.kinds)
    (items : AlikeBehind start item other) :
    Alike start start.Further (counting item) (counting other) := by
  apply (expect_strides _ (by decide)).then_alike ended
  intro keyword later further
  apply (expect_goes _ _).then_alike
  intro opening
  apply (clause_blamesOnce _).goes.then_alike
  intro first
  apply (expect_goes _ _).then_alike
  intro _
  apply (clause_blamesOnce _).goes.then_alike
  intro test
  apply (expect_goes _ _).then_alike
  intro _
  apply (clause_blamesOnce _).goes.then_alike
  intro last
  apply (expect_goes _ _).then_alike
  intro closing
  apply (endLine_goes _).then_alike
  intro _
  apply (blockOf_alike (items later further) _).bind
  intro body
  exact (endLine_goes _).then_alike fun _ => (Goes.pure _).alike

/-- Every form passes its first token before it parses a statement inside. -/
theorem statementOver_alike {start : Progress} (ended : EndsOnce start.cursor.kinds)
    (items : AlikeBehind start item other) :
    Alike start start.Further (statementOver item) (statementOver other) := by
  apply Alike.looking
  cases start.cursor.current.kind with
  | declareWord => exact .fail _
  | printWord => exact ⟨rfl, printing_closesLine.strides start ended⟩
  | scanWord => exact ⟨rfl, scanning_closesLine.strides start ended⟩
  | ifWord =>
    have branches := conditional_alike ended items start.cursor.remaining
    exact ⟨branches.same, branches.ends⟩
  | repeatWord => exact repetition_alike ended items
  | forWord => exact counting_alike ended items
  | _ => exact ⟨rfl, expressionLine_closesLine.strides start ended⟩

/-- The branches of a conditional as long as the tokens left allow. -/
def branches (item : Parse Stmt) : Parse Stmt := do
  conditional item (← remaining)

/-- Each further branch starts behind an ELSE. -/
theorem branches_recursesForward (blames : BlamesOnce item) :
    RecursesForward (conditionalStep item) (branches item) := by
  have bounds : Bounded (fun nested (_ : Unit) => conditionalStep item (nested ()))
      fun bound _ => conditional item bound := by
    refine ⟨fun bound _ => (conditional_blamesOnce blames bound).goes, fun _ _ _ _ _ => rfl, ?_⟩
    intro start nested loop ended alike _
    exact (conditionalStep_alike ended blames.goes.alike.behind (alike ())).same
  exact .of_bounded bounds

end Nested

/-- Statements may be parsed with any bound that is not below the tokens left: a statement inside
another one starts further on. -/
theorem statement_bounded :
    Bounded (fun nested (_ : Unit) => statementOver (nested ())) fun bound _ =>
      statement bound where
  goes := fun bound _ => (statement_blamesOnce bound).goes
  unfolds := fun _ _ _ _ _ => rfl
  guarded := fun _ _ _ ended alike _ => (statementOver_alike ended (alike ())).same

theorem parse_blamesOnce : BlamesOnce parse :=
  Walks.counting statement_blamesOnce

/-- A statement contains others behind the keyword it starts with. -/
theorem parse_recursesForward : RecursesForward statementOver parse :=
  .of_bounded statement_bounded

/-- Every statement passes a token. -/
theorem parse_strides : Strides parse := by
  intro start ended
  rw [parse_recursesForward.unfold ended]
  exact (statementOver_alike ended parse_blamesOnce.goes.alike.behind).ends

/-- The statements of a run are statements without a bound. -/
theorem parseRun_eq (nesting : Nesting) {start : Progress} (ended : EndsOnce start.cursor.kinds) :
    parseRun nesting start = run nesting parse start := by
  have items : AlikeFrom start (statement start.cursor.remaining) parse :=
    statement_bounded.alikeFrom (Nat.le_refl _) ()
  exact (run_alike items nesting start .refl ended).same

/-- Whether a run of statements goes on at the cursor. -/
def goesOn (nesting : Nesting) (cursor : Cursor) : Bool :=
  !endsAt nesting cursor

/-- The rounds of a run, as long as the tokens left allow. -/
def rounds (nesting : Nesting) : Parse (List Stmt) := do
  runFrom nesting parse (← remaining)

/-- Where a run goes on it is not at the end of the text, so that a turn passes a token even if it
finds nothing. -/
theorem round_advances_of_goesOn {nesting : Nesting} {start : Progress}
    (ended : EndsOnce start.cursor.kinds) (running : goesOn nesting start.cursor = true) :
    Advances (round parse) start := by
  have inside : start.cursor.current.kind ≠ .eof := by
    intro last
    simp [goesOn, endsAt, last] at running
  exact round_advances parse_strides ended inside

theorem runFrom_succ (nesting : Nesting) (item : Parse Stmt) (bound : Nat) :
    runFrom nesting item (bound + 1) =
      linesStep (goesOn nesting) (round item) (runFrom nesting item bound) := by
  funext start
  cases stop : endsAt nesting start.cursor with
  | true => simp [runFrom, linesStep, goesOn, Action.bind_apply, atEnd, stop]
  | false => simp [runFrom, linesStep, goesOn, Action.bind_apply, atEnd, stop, turn]

/-- The turns of a run recurse forward. -/
theorem rounds_recursesForward (nesting : Nesting) :
    RecursesForward (linesStep (goesOn nesting) (round parse)) (rounds nesting) :=
  .of_bounded (lines_bounded (fun _ => round_advances_of_goesOn)
    (fun bound => (runFrom_blamesOnce parse_blamesOnce nesting bound).goes)
    (runFrom_succ nesting parse))

/-- A run of statements ends where the test of its loop says so. -/
theorem parseRun_finishes (nesting : Nesting) :
    Finishes (parseRun nesting) fun cursor => endsAt nesting cursor = true := by
  have finishes : Finishes (run nesting parse) fun cursor => goesOn nesting cursor = false :=
    ((rounds_recursesForward nesting).finishes_lines
      fun _ => round_advances_of_goesOn).behind_blank
  intro start ended
  obtain ⟨found, reached, ending, steps, stop⟩ := finishes start ended
  refine ⟨found, reached, (parseRun_eq nesting ended).trans ending, steps, ?_⟩
  simpa [goesOn] using stop

end Stmt

/-! ### Programs -/

namespace Program

/-- Whether a declaration starts at the cursor. -/
def startsDeclaration (cursor : Cursor) : Bool :=
  cursor.current.kind == .declareWord

/-- The declarations at the cursor, as long as the tokens left allow. -/
def declarationRounds : Parse (List Stmt) := do
  declarationsFrom (← remaining)

/-- A line that starts with DECLARE passes this word at least. -/
theorem declaration_advances {start : Progress} (ended : EndsOnce start.cursor.kinds)
    (declares : startsDeclaration start.cursor = true) :
    Advances (recover Stmt.declaration) start := by
  have keyword : start.cursor.current.kind = .declareWord := by
    simpa [startsDeclaration] using declares
  exact recover_advances Stmt.declaration_closesLine.strides ended (by rw [keyword]; decide)

theorem declarationsFrom_succ (bound : Nat) :
    declarationsFrom (bound + 1) =
      linesStep startsDeclaration (recover Stmt.declaration) (declarationsFrom bound) := by
  funext start
  by_cases declares : start.cursor.current.kind = .declareWord
  · simp [declarationsFrom, linesStep, startsDeclaration, Action.bind_apply, check, declares, turn]
  · simp [declarationsFrom, linesStep, startsDeclaration, Action.bind_apply, check, declares]

/-- The lines of declarations recurse forward. -/
theorem declarationRounds_recursesForward :
    RecursesForward (linesStep startsDeclaration (recover Stmt.declaration)) declarationRounds :=
  .of_bounded (lines_bounded (fun _ => declaration_advances)
    (fun bound => (declarationsFrom_blamesOnce bound).goes) declarationsFrom_succ)

/-- The declarations end, and behind them no declaration starts. -/
theorem declarations_finishes :
    Finishes declarations fun cursor => startsDeclaration cursor = false :=
  (declarationRounds_recursesForward.finishes_lines fun _ => declaration_advances).behind_blank

/-- The parsers that parsing a program is made of. -/
inductive Part : {α : Type} → Parse α → Prop where
  | current : Part current
  | remaining : Part remaining
  | check (kinds : List TokenKind) : Part (check kinds)
  | advance : Part advance
  | accept (kinds : List TokenKind) : Part (accept kinds)
  | report (token : Token) (message : String) : Part (report token message)
  | fail {α : Type} (message : String) : Part (fail message : Parse α)
  | expect (kind : TokenKind) (message : String) : Part (expect kind message)
  | expectAll (message : String) (kinds : List TokenKind) : Part (expectAll message kinds)
  | endLine (message : String) : Part (endLine message)
  | skipNewlines : Part skipNewlines
  | skipLine : Part skipLine
  | synchronize : Part synchronize
  | recover {α : Type} {item : Parse α} (inside : Part item) : Part (recover item)
  | chain {operators : List TokenKind} {node : Expr → Token → Expr → Expr} {operand : Parse Expr}
      (inside : Part operand) : Part (Expr.chain operators node operand)
  | assignment {factor : Parse Expr} (inside : Part factor) (bound : Nat) :
      Part (Expr.assignment factor bound)
  | factor (bound : Nat) : Part (Expr.factor bound)
  | expression : Part Expr.parse
  | moreNames (bound : Nat) : Part (Stmt.moreNames bound)
  | declarator : Part Stmt.declarator
  | moreDeclarators (bound : Nat) : Part (Stmt.moreDeclarators bound)
  | typeName : Part Stmt.typeName
  | declaration : Part Stmt.declaration
  | printing : Part Stmt.printing
  | scanning : Part Stmt.scanning
  | expressionLine : Part Stmt.expressionLine
  | condition (header : String) : Part (Stmt.condition header)
  | clause (closer : TokenKind) : Part (Stmt.clause closer)
  | round {item : Parse Stmt} (inside : Part item) : Part (Stmt.round item)
  | runFrom {item : Parse Stmt} (inside : Part item) (nesting : Stmt.Nesting) (bound : Nat) :
      Part (Stmt.runFrom nesting item bound)
  | run {item : Parse Stmt} (inside : Part item) (nesting : Stmt.Nesting) :
      Part (Stmt.run nesting item)
  | blockOf {item : Parse Stmt} (inside : Part item) (form : TokenKind) :
      Part (Stmt.blockOf item form)
  | conditional {item : Parse Stmt} (inside : Part item) (bound : Nat) :
      Part (Stmt.conditional item bound)
  | repetition {item : Parse Stmt} (inside : Part item) : Part (Stmt.repetition item)
  | counting {item : Parse Stmt} (inside : Part item) : Part (Stmt.counting item)
  | statement (bound : Nat) : Part (Stmt.statement bound)
  | statements (nesting : Stmt.Nesting) : Part (Stmt.parseRun nesting)
  | header : Part header
  | declarations (bound : Nat) : Part (declarationsFrom bound)
  | footer : Part footer
  | program : Part Program.statements

/-- Every part of the parser goes by steps. -/
theorem Part.goes {α : Type} {parser : Parse α} (part : Part parser) : Goes parser := by
  induction part with
  | current => exact current_goes
  | remaining => exact remaining_goes
  | check kinds => exact check_goes kinds
  | advance => exact advance_goes
  | accept kinds => exact accept_goes kinds
  | report token message => exact report_goes token message
  | fail message => exact fail_goes message
  | expect kind message => exact expect_goes kind message
  | expectAll message kinds => exact expectAll_goes message kinds
  | endLine message => exact endLine_goes message
  | skipNewlines => exact skipNewlines_goes
  | skipLine => exact skipLine_goes
  | synchronize => exact synchronize_goes
  | recover _ goes => exact .of_alike fun _ => recover_alike goes.alike
  | chain _ goes => exact .of_alike fun _ => Expr.chain_alike goes.alike
  | assignment _ bound goes => exact .of_alike fun _ => Expr.assignment_alike goes.alike bound
  | factor bound => exact (Expr.factor_blamesOnce bound).goes
  | expression => exact Expr.parse_blamesOnce.goes
  | moreNames bound => exact (Stmt.moreNames_blamesOnce bound).goes
  | declarator => exact Stmt.declarator_blamesOnce.goes
  | moreDeclarators bound => exact (Stmt.moreDeclarators_blamesOnce bound).goes
  | typeName => exact Stmt.typeName_blamesOnce.goes
  | declaration => exact Stmt.declaration_blamesOnce.goes
  | printing => exact Stmt.printing_blamesOnce.goes
  | scanning => exact Stmt.scanning_blamesOnce.goes
  | expressionLine => exact Stmt.expressionLine_blamesOnce.goes
  | condition header => exact (Stmt.condition_blamesOnce header).goes
  | clause closer => exact (Stmt.clause_blamesOnce closer).goes
  | round _ goes => exact .of_alike fun _ => Stmt.round_alike goes.alike
  | runFrom _ nesting bound goes =>
    exact .of_alike fun _ => Stmt.runFrom_alike goes.alike nesting bound
  | run _ nesting goes => exact .of_alike fun _ => Stmt.run_alike goes.alike nesting
  | blockOf _ form goes => exact .of_alike fun _ => Stmt.blockOf_alike goes.alike form
  -- These three may take nothing only behind a refusal, so `Goes` comes from their strides.
  | conditional _ bound goes =>
    have strides := Strides.of_alike fun _ ended =>
      Stmt.conditional_alike ended goes.alike.behind bound
    exact strides.goes
  | repetition _ goes =>
    have strides := Strides.of_alike fun _ ended =>
      Stmt.repetition_alike ended goes.alike.behind
    exact strides.goes
  | counting _ goes =>
    have strides := Strides.of_alike fun _ ended =>
      Stmt.counting_alike ended goes.alike.behind
    exact strides.goes
  | statement bound => exact (Stmt.statement_blamesOnce bound).goes
  | statements nesting => exact (Stmt.parseRun_blamesOnce nesting).goes
  | header => exact header_blamesOnce.goes
  | declarations bound => exact (declarationsFrom_blamesOnce bound).goes
  | footer => exact footer_blamesOnce.goes
  | program => exact statements_blamesOnce.goes

/-- Every loop and every recursion of the parsers goes further with each turn and each call. The
parsers named here are those that programs are parsed with, with the tokens left as their bounds;
the steps of their recursions have no bounds. -/
structure RecursionForward : Prop where
  blankLines : RecursesForward (passStep (· == .newline)) Parse.skipNewlines
  lineEnds : RecursesForward (passStep fun kind => kind != .newline && kind != .eof)
    (passAll fun kind => kind != .newline && kind != .eof)
  lines : Parse.skipLine = do
    passAll fun kind => kind != .newline && kind != .eof
    let _ ← Parse.accept [.newline]
  resumption : LoopsForward resumeStep resume
  recovery : Parse.synchronize = do resume (← Parse.advance)
  chains : ∀ (operators : List TokenKind) (node : Expr → Token → Expr → Expr)
    (operand : Parse Expr), .eof ∉ operators → Goes operand →
    LoopsForward (Expr.chainStep operators node operand) (Expr.chainRest operators node operand)
  factors : RecursesForward Expr.factorStep Expr.anyFactor
  expressions : RecursesForward (Expr.assignmentStep Expr.anyFactor) Expr.parse
  names : RecursesForward (Stmt.moreStep (Parse.expect .identifier "Expected variable name"))
    (do Stmt.moreNames (← Parse.remaining))
  declarators : RecursesForward (Stmt.moreStep Stmt.declarator)
    (do Stmt.moreDeclarators (← Parse.remaining))
  branches : RecursesForward (Stmt.conditionalStep Stmt.parse) (Stmt.branches Stmt.parse)
  rounds : ∀ nesting, RecursesForward
    (linesStep (Stmt.goesOn nesting) (Stmt.round Stmt.parse)) (Stmt.rounds nesting)
  statements : RecursesForward Stmt.statementOver Stmt.parse
  declarations : RecursesForward (linesStep startsDeclaration (Parse.recover Stmt.declaration))
    declarationRounds

/-- Every loop and every recursion of the parsers goes forward. -/
theorem recursionForward : RecursionForward where
  blankLines := passAll_recursesForward rfl
  lineEnds := passAll_recursesForward rfl
  lines := skipLine_eq
  resumption := resume_loopsForward
  recovery := synchronize_eq
  chains := fun _ _ _ inside goes => Expr.chainRest_loopsForward inside goes
  factors := Expr.anyFactor_recursesForward
  expressions := Expr.parse_recursesForward
  names := Stmt.moreNames_recursesForward
  declarators := Stmt.moreDeclarators_recursesForward
  branches := Stmt.branches_recursesForward Stmt.parse_blamesOnce
  rounds := Stmt.rounds_recursesForward
  statements := Stmt.parse_recursesForward
  declarations := declarationRounds_recursesForward

/-- Parsing the tokens keeps its cursor at one of them and takes it forward only. -/
structure ParsesForward (tokens : List Token) : Prop where
  /-- Wherever a parser can come, the cursor stands at a token and sees it. -/
  stands : ∀ progress, Visited tokens progress → progress.cursor.StandsIn tokens
  /-- It never goes back. -/
  onward : ∀ progress later, Visited tokens progress → progress.Steps later →
    progress.cursor.index ≤ later.cursor.index
  /-- Each part of the parser, started anywhere on the way, only goes on from there, whether it
  finds something or gives up. -/
  parts : ∀ {α : Type} {parser : Parse α}, Part parser → ∀ start, Visited tokens start →
    Ends start.Steps start.Steps (parser start)
  /-- A turn of the loop over statements passes a token, also if it ends in a recovery or at a stray
  `END`. -/
  statementTurn : ∀ nesting start, Visited tokens start → Stmt.endsAt nesting start.cursor = false →
    Advances (turn (Stmt.round Stmt.parse)) start
  /-- So does a turn of the loop over declarations. -/
  declarationTurn : ∀ start, Visited tokens start → start.cursor.current.kind = .declareWord →
    Advances (turn (Parse.recover Stmt.declaration)) start
  /-- The loop over statements ends where its condition says so. -/
  statementsEnd : ∀ nesting start, Visited tokens start → ∃ found reached,
    Stmt.parseRun nesting start = .ok found reached ∧ start.Steps reached ∧
      Stmt.endsAt nesting reached.cursor = true
  /-- So does the loop over declarations. -/
  declarationsEnd : ∀ start, Visited tokens start → ∃ found reached,
    declarations start = .ok found reached ∧ start.Steps reached ∧
      reached.cursor.current.kind ≠ .declareWord
  /-- The statements of a run are parsed by the loop over statements, each by the recursion over its
  nested statements. -/
  runs : ∀ nesting start, Visited tokens start →
    Stmt.parseRun nesting start = (do Parse.skipNewlines; Stmt.rounds nesting) start
  /-- No bound on the nesting is ever reached: a larger one changes nothing. -/
  enough : ∀ bound start, Visited tokens start → start.cursor.remaining ≤ bound →
    Stmt.statement bound start = Stmt.parse start
  recursion : RecursionForward

/-- Whatever tokens are parsed, if the last of them and no other ends the text: the cursor stays in
them, sees the token at which it stands, and never goes back; every turn of the loops over
statements and declarations takes it further, so both loops end where their conditions say; and no
recursion calls itself where it was before, so parsing ends. -/
theorem parse_goes_forward {tokens : List Token} (ended : EndsOnce (tokens.map Token.kind)) :
    ParsesForward tokens := by
  have nonempty : tokens ≠ [] := by
    rintro rfl
    exact EndsOnce.not_nil ended
  -- Wherever the parse stands, the end of the text is still ahead.
  have still {progress : Progress} (visited : Visited tokens progress) :
      EndsOnce progress.cursor.kinds := by
    apply Steps.endsOnce visited
    rwa [Progress.ofTokens, Cursor.kinds_ofTokens ended]
  refine
    { stands := fun progress visited => visited.standsIn nonempty
      onward := fun progress later _ steps => steps.index_le
      parts := fun part start visited => part.goes start (still visited)
      statementTurn := ?_
      declarationTurn := ?_
      statementsEnd := fun nesting start visited =>
        Stmt.parseRun_finishes nesting start (still visited)
      declarationsEnd := ?_
      runs := fun nesting start visited => Stmt.parseRun_eq nesting (still visited)
      enough := fun bound start visited fits =>
        Stmt.statement_bounded.eq_of_remaining_le (still visited) fits ()
      recursion := recursionForward }
  · intro nesting start visited running
    apply Advances.turn _ (still visited)
    exact Stmt.round_advances_of_goesOn (still visited) (by rw [Stmt.goesOn, running]; rfl)
  · intro start visited declares
    apply Advances.turn _ (still visited)
    exact declaration_advances (still visited) (by rw [startsDeclaration, declares]; rfl)
  · intro start visited
    obtain ⟨found, reached, ending, steps, stop⟩ := declarations_finishes start (still visited)
    refine ⟨found, reached, ending, steps, ?_⟩
    simpa [startsDeclaration] using stop

/-- Kinds of tokens that make no program. -/
def strayKinds : List TokenKind :=
  [.endWord, .ifWord, .newline, .declareWord, .leftParen, .ifWord, .leftParen, .startWord, .newline,
    .endWord, .equal]

/-- Such tokens, closed by the end of the text. -/
def strayTokens : List Token :=
  (strayKinds ++ [TokenKind.eof]).map fun kind => ⟨kind, kind.label, none, .start⟩

theorem strayTokens_go_forward :
    EndsOnce (strayTokens.map Token.kind) ∧ (parse strayTokens).program = none ∧
      ParsesForward strayTokens := by
  have ended : EndsOnce (strayTokens.map Token.kind) := ⟨strayKinds, rfl, by decide⟩
  have rejected : (parse strayTokens).program.isNone := by decide +kernel
  exact ⟨ended, Option.isNone_iff_eq_none.mp rejected, parse_goes_forward ended⟩

end Program

end LineScript
