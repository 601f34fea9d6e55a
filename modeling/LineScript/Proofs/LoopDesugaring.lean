/-
Module: LineScript.Proofs.LoopDesugaring
Purpose: The trees built for the loops of a program run as the loops are written.
Trusted boundary: none
Main exports: RunsAs, counting_runsAs, repetition_runsAs, Loop.parse, parsed_loops_run_as_written
-/
import LineScript.Proofs.EmptyScope
import LineScript.Proofs.LoopRules
import LineScript.Proofs.ParsedTree
import LineScript.Proofs.SourceLiteral

/-!
Both loop forms are parsed into trees with one kind of loop. The tree of a counted loop has blocks
that were not written: one around the body and the last clause, one around the first clause and the
loop, so that a round runs its statements two scopes deeper than the clauses stand. Nothing is ever
declared in these scopes, so the tree runs as the loop is written.
-/

namespace LineScript

open Run

namespace Stmt

/-! ### The trees of loops -/

/-- The tree built for a loop with counting clauses. -/
def ofCounted (loop : Loop) : Stmt :=
  forLoop loop.keyword loop.first loop.condition loop.last (.block loop.statements)

/-- The tree built for a loop without counting clauses. -/
def ofRepeated (loop : Loop) : Stmt :=
  .loop (some loop.keyword) (loop.condition.getD (.literal (.bool true))) (.block loop.statements)

section Equations

variable (fuel : Nat)

theorem exec_expression (expr : Expr) :
    (expression expr).exec fuel = (do let _ ← expr.eval) := rfl

theorem exec_loop (keyword : Option Token) (condition : Expr) (body : Stmt) :
    (loop keyword condition body).exec fuel =
      whileLoop (condition.evalCondition keyword) (body.exec fuel) fuel := rfl

theorem exec_block (statements : List Stmt) :
    (block statements).exec fuel = inScope (execEach fuel statements) := rfl

theorem execEach_nil : execEach fuel [] = pure () := rfl

theorem execEach_cons (statement : Stmt) (rest : List Stmt) :
    execEach fuel (statement :: rest) = (do statement.exec fuel; execEach fuel rest) := rfl

end Equations

/-- A clause left out stands for TRUE in the tree and in the rules alike. -/
theorem evalCondition_eq_test (keyword : Token) (condition : Option Expr) :
    (condition.getD (.literal (.bool true))).evalCondition (some keyword) =
      Loop.test keyword condition := by
  cases condition with
  | none => rfl
  | some expr => rfl

/-- The third clause is an expression statement when it is there, and nothing otherwise. -/
theorem execEach_clause (fuel : Nat) (clause : Option Expr) :
    execEach fuel (clause.toList.map .expression) = Loop.evalClause clause := by
  cases clause with
  | none => rfl
  | some expr =>
    funext machine
    simp [execEach_cons, execEach_nil, exec_expression, Loop.evalClause]

/-- A clause runs alike with an empty scope around it and without. -/
theorem clause_unpadded (depth : Nat) (clause : Option Expr) :
    Simulated False (Machine.Pads depth) (Loop.evalClause clause) (Loop.evalClause clause) := by
  cases clause with
  | none => exact Simulated.pure ()
  | some expr => exact (Machine.pads_simulation.eval depth expr).bind fun _ => Simulated.pure ()

/-- One round of a loop runs alike with an empty scope around it and without: this is the scope that
the derived tree adds for the third clause. -/
theorem round_unpadded (fuel : Nat) (loop : Loop) :
    Simulated False (Machine.Pads 0)
      (do
        inScope (execEach fuel loop.statements)
        Loop.evalClause loop.last)
      (do
        inScope (execEach fuel loop.statements)
        Loop.evalClause loop.last) :=
  (Machine.pads_simulation.block (.inl rfl) 0 loop.statements).bind fun _ =>
    clause_unpadded 0 loop.last

/-- The block around the body and the last clause makes no difference. -/
theorem round_exec (fuel : Nat) (loop : Loop) :
    (block (.block loop.statements :: loop.last.toList.map .expression)).exec fuel =
      (do
        inScope (execEach fuel loop.statements)
        Loop.evalClause loop.last) := by
  rw [exec_block, execEach_cons, execEach_clause, exec_block]
  apply inScope_eq_self
  exact round_unpadded fuel loop

/-- A loop over the rounds of the rules, clause by clause and turn by turn. -/
theorem whileLoop_eq_rounds (fuel : Nat) (loop : Loop) (left : Nat) :
    whileLoop (Loop.test loop.keyword loop.condition)
      (do
        inScope (execEach fuel loop.statements)
        Loop.evalClause loop.last) left = loop.rounds fuel left := by
  induction left with
  | zero => rfl
  | succ left inductionHypothesis =>
    simp only [whileLoop, Loop.rounds, bind_assoc, inductionHypothesis]

/-- All rounds together run alike with an empty scope around them and without. -/
theorem rounds_unpadded (fuel : Nat) (loop : Loop) (left : Nat) :
    Simulated False (Machine.Pads 0) (loop.rounds fuel left) (loop.rounds fuel left) := by
  rw [← whileLoop_eq_rounds, ← evalCondition_eq_test]
  apply Simulated.whileLoop
  · exact Machine.pads_simulation.evalCondition 0 _ _
  · exact round_unpadded fuel loop
  · exact .inl rfl

/-- The derived tree does in one turn what the rules do in one: the body in its scope and then the
third clause. -/
theorem rounds_exec (fuel : Nat) (loop : Loop) :
    (Stmt.loop (some loop.keyword) (loop.condition.getD (.literal (.bool true)))
      (.block (.block loop.statements :: loop.last.toList.map .expression))).exec fuel =
        loop.rounds fuel fuel := by
  rw [exec_loop, evalCondition_eq_test, round_exec, whileLoop_eq_rounds]

/-- With any fuel, the tree of a counted loop runs as the loop is written. -/
theorem ofCounted_exec (fuel : Nat) (loop : Loop) : (ofCounted loop).exec fuel = loop.run fuel := by
  unfold ofCounted forLoop Loop.run
  cases loop.first with
  | none => exact rounds_exec fuel loop
  | some expr =>
    dsimp only
    rw [exec_block, execEach_cons, execEach_cons, rounds_exec, execEach_nil, bind_pure_unit]
    -- The block around the first clause and the loop.
    apply inScope_eq_self
    exact (clause_unpadded 0 (some expr)).bind fun _ => rounds_unpadded fuel loop fuel

/-- With any fuel, the tree of a loop without counting clauses runs as the loop is written. -/
theorem ofRepeated_exec (fuel : Nat) {loop : Loop} (noFirst : loop.first = none)
    (noLast : loop.last = none) : (ofRepeated loop).exec fuel = loop.run fuel := by
  have rounds := whileLoop_eq_rounds fuel loop fuel
  rw [noLast, Loop.evalClause, bind_pure_unit] at rounds
  rw [ofRepeated, exec_loop, exec_block, evalCondition_eq_test, rounds, Loop.run, noFirst]
  rfl

/-- The statement runs as the loop is written. Cut off at any point, both have read and written the
same; and the statement ends exactly as the rules for the loop say. -/
structure RunsAs (statement : Stmt) (loop : Loop) : Prop where
  exec : ∀ fuel, statement.exec fuel = loop.run fuel
  ends : ∀ machine ending, statement.Ends machine ending ↔ loop.Ends machine ending

/-- A tree runs as a loop when its execution is the one of the rules, under every fuel. -/
theorem runsAs_of_exec {statement : Stmt} {loop : Loop}
    (exec : ∀ fuel, statement.exec fuel = loop.run fuel) : statement.RunsAs loop := by
  refine ⟨exec, fun machine ending => ?_⟩
  rw [← Loop.settles_iff, Ends, funext exec]

end Stmt

/-! ### Loops as they are parsed -/

open Parse

/-- The statements between the lines `START` and `END` of a form. -/
def Stmt.statementsOf (item : Parse Stmt) (form : TokenKind) : Parse (List Stmt) := do
  skipNewlines
  let _ ← expect .startWord ("Expected 'START " ++ form.label ++ "'")
  let _ ← expect form ("Expected 'START " ++ form.label ++ "'")
  endLine ("Expected newline after 'START " ++ form.label ++ "'")
  let statements ← run .inBlock item
  let _ ← expect .endWord ("Expected 'END " ++ form.label ++ "'")
  let _ ← expect form ("Expected 'END " ++ form.label ++ "'")
  return statements

/-- A block is the list of its statements, wrapped up. -/
theorem Stmt.blockOf_eq (item : Parse Stmt) (form : TokenKind) :
    blockOf item form = Stmt.block <$> statementsOf item form := by
  simp [blockOf, statementsOf]

namespace LoopHeader

/-- The header line of a counted loop. -/
def counted : Parse LoopHeader := do
  let keyword ← expect .forWord "Expected 'FOR'"
  let _ ← expect .leftParen "Expected '(' after 'FOR'"
  let first ← Stmt.clause .comma
  let _ ← expect .comma "Expected ',' after loop initializer"
  let condition ← Stmt.clause .comma
  let _ ← expect .comma "Expected ',' after loop condition"
  let last ← Stmt.clause .rightParen
  let _ ← expect .rightParen "Expected ')' after FOR clauses"
  endLine "Expected newline after 'FOR' clauses"
  return ⟨keyword, first, condition, last⟩

/-- The header line of a loop with a condition only. -/
def repeated : Parse LoopHeader := do
  let keyword ← expect .repeatWord "Expected 'REPEAT'"
  let _ ← expect .whenWord "Expected 'WHEN' after 'REPEAT'"
  let condition ← Stmt.condition "REPEAT WHEN"
  return ⟨keyword, none, some condition, none⟩

end LoopHeader

/-- A loop of a form, as it is written. -/
def Loop.parse (header : Parse LoopHeader) (form : TokenKind) (item : Parse Stmt) : Parse Loop := do
  let header ← header
  let statements ← Stmt.statementsOf item form
  endLine ("Expected newline after 'END " ++ form.label ++ "'")
  return ⟨header, statements⟩

namespace Stmt

/-- The parser for a counting loop reads the clauses and the body as they are written and then wraps
them up. -/
theorem counting_eq (item : Parse Stmt) :
    counting item = ofCounted <$> Loop.parse LoopHeader.counted .forWord item := by
  simp [counting, Loop.parse, LoopHeader.counted, blockOf_eq, ofCounted, TokenKind.label]

/-- So does the parser for a repetition, which has a condition alone. -/
theorem repetition_eq (item : Parse Stmt) :
    repetition item = ofRepeated <$> Loop.parse LoopHeader.repeated .repeatWord item := by
  simp [repetition, Loop.parse, LoopHeader.repeated, blockOf_eq, ofRepeated, TokenKind.label]

end Stmt

theorem Parse.current_apply (progress : Progress) :
    current progress = .ok progress.cursor.current progress := rfl

/-- A token that was expected and found is the one that the parser stood at. -/
theorem Parse.expect_eq_ok {kind : TokenKind} {message : String} {progress reached : Progress}
    {token : Token} (found : expect kind message progress = .ok token reached) :
    token = progress.cursor.current := by
  obtain ⟨truth, middle, checked, found⟩ := Action.bind_eq_ok.mp found
  cases checked
  split at found
  · cases found
    rfl
  · cases found

namespace LoopHeader

/-- How a parsed header belongs to the tokens it was read from: its keyword is the one at the
cursor, and the condition can be printed if the tokens are those of a source text. -/
structure ReadAt (header : LoopHeader) (progress : Progress) : Prop where
  keyword : header.keyword = progress.cursor.current
  printable : ∀ source, progress.cursor.tokens = (lex source).tokens →
    ∀ expr, header.condition = some expr → expr.isPrintable

variable {progress reached : Progress} {header : LoopHeader}

section Yields

variable {tokens : List Token}
  (printable : ∀ token ∈ tokens, ∀ value, token.literal = some value → value.isPrintable)

include printable

/-- The condition that is read as a clause is a well-formed expression. -/
theorem counted_yields :
    Yields tokens counted fun header => ∀ expr, header.condition = some expr → expr.WellFormed := by
  refine (expect_yields _ _).bind fun keyword _ => (expect_yields _ _).bind fun _ _ => ?_
  refine (Stmt.clause_yields _).bind fun first _ => ?_
  refine (expect_yields _ _).bind fun _ _ => ?_
  refine (Stmt.clause_yields _).bind fun condition made => ?_
  refine (expect_yields _ _).bind fun _ _ => ?_
  refine (Stmt.clause_yields _).bind fun last _ => ?_
  refine (expect_yields _ _).bind fun _ _ => (endLine_yields _).bind fun _ _ => ?_
  exact Yields.pure fun expr present => (made expr present).wellFormed printable

/-- So is the condition of a repetition. -/
theorem repeated_yields :
    Yields tokens repeated fun header =>
      ∀ expr, header.condition = some expr → expr.WellFormed := by
  refine (expect_yields _ _).bind fun keyword _ => (expect_yields _ _).bind fun _ _ => ?_
  refine (Stmt.condition_yields _).bind fun condition made => Yields.pure ?_
  intro expr same
  cases same
  exact made.wellFormed printable

end Yields

/-- The header of a counting loop is read where the parser stood, keyword first. -/
theorem counted_readAt (parsed : counted progress = .ok header reached) :
    header.ReadAt progress where
  keyword := by
    simp only [counted, Action.bind_eq_ok] at parsed
    obtain ⟨keyword, _, found, _, _, _, first, _, _, _, _, _, condition, _, _, parsed⟩ := parsed
    obtain ⟨_, _, _, last, _, _, _, _, _, _, _, _, parsed⟩ := parsed
    cases parsed
    exact expect_eq_ok found
  printable := by
    intro source same expr present
    have yields := counted_yields (lex_printable source) progress same
    rw [parsed] at yields
    exact (yields.2 expr present).isPrintable

/-- The header of a repetition is read where the parser stood. -/
theorem repeated_readAt (parsed : repeated progress = .ok header reached) :
    header.ReadAt progress where
  keyword := by
    simp only [repeated, Action.bind_eq_ok] at parsed
    obtain ⟨keyword, _, found, _, _, _, condition, _, _, parsed⟩ := parsed
    cases parsed
    exact expect_eq_ok found
  printable := by
    intro source same expr present
    have yields := repeated_yields (lex_printable source) progress same
    rw [parsed] at yields
    exact (yields.2 expr present).isPrintable

/-- A repetition has a condition and no other clause. -/
theorem repeated_shape (parsed : repeated progress = .ok header reached) :
    header.first = none ∧ (∃ condition, header.condition = some condition) ∧
      header.last = none := by
  simp only [repeated, Action.bind_eq_ok] at parsed
  obtain ⟨keyword, _, _, _, _, _, condition, _, _, parsed⟩ := parsed
  cases parsed
  exact ⟨rfl, ⟨condition, rfl⟩, rfl⟩

end LoopHeader

/-- A loop is parsed as its header and then its body, and the keyword of the header is kept. -/
theorem Loop.parse_eq_ok {header : Parse LoopHeader} {form : TokenKind} {item : Parse Stmt}
    {progress reached : Progress} {loop : Loop}
    (parsed : Loop.parse header form item progress = .ok loop reached) :
    ∃ middle, header progress = .ok loop.toLoopHeader middle := by
  simp only [Loop.parse, Action.bind_eq_ok] at parsed
  obtain ⟨found, middle, first, statements, _, _, _, _, _, parsed⟩ := parsed
  cases parsed
  exact ⟨middle, first⟩

namespace Stmt

variable {item : Parse Stmt} {progress reached : Progress} {statement : Stmt}

/-- A counted loop is parsed as it is written, and its tree runs as it is written. -/
theorem counting_runsAs (parsed : counting item progress = .ok statement reached) :
    ∃ loop, Loop.parse LoopHeader.counted .forWord item progress = .ok loop reached ∧
      loop.ReadAt progress ∧ statement.RunsAs loop := by
  rw [counting_eq] at parsed
  obtain ⟨loop, written, rfl⟩ := Action.map_eq_ok.mp parsed
  obtain ⟨_, header⟩ := Loop.parse_eq_ok written
  refine ⟨loop, written, LoopHeader.counted_readAt header, runsAs_of_exec fun fuel => ?_⟩
  exact ofCounted_exec fuel loop

/-- A loop with a condition only is parsed as it is written, and its tree runs as it is written. -/
theorem repetition_runsAs (parsed : repetition item progress = .ok statement reached) :
    ∃ loop condition,
      Loop.parse LoopHeader.repeated .repeatWord item progress = .ok loop reached ∧
      loop.ReadAt progress ∧ loop.first = none ∧ loop.condition = some condition ∧
      loop.last = none ∧ statement.RunsAs loop := by
  rw [repetition_eq] at parsed
  obtain ⟨loop, written, rfl⟩ := Action.map_eq_ok.mp parsed
  obtain ⟨_, header⟩ := Loop.parse_eq_ok written
  obtain ⟨noFirst, ⟨condition, present⟩, noLast⟩ := LoopHeader.repeated_shape header
  refine ⟨loop, condition, written, LoopHeader.repeated_readAt header, noFirst, present, noLast, ?_⟩
  exact runsAs_of_exec fun fuel => ofRepeated_exec fuel noFirst noLast

/-- A statement at the word FOR is a counting loop. -/
theorem statementOver_of_for (keyword : progress.cursor.current.kind = .forWord) :
    statementOver item progress = counting item progress := by
  rw [statementOver, Action.bind_of_ok (current_apply progress), keyword]

/-- A statement at the word REPEAT is a repetition. -/
theorem statementOver_of_repeat (keyword : progress.cursor.current.kind = .repeatWord) :
    statementOver item progress = repetition item progress := by
  rw [statementOver, Action.bind_of_ok (current_apply progress), keyword]

/-- The loops that the parser accepts run as they are written. The clauses, the condition and the
statements are those that were read. -/
theorem parsed_loops_run_as_written (item : Parse Stmt) (progress reached : Progress)
    (statement : Stmt) (parsed : statementOver item progress = .ok statement reached) :
    (progress.cursor.current.kind = .forWord →
      ∃ loop, Loop.parse LoopHeader.counted .forWord item progress = .ok loop reached ∧
        loop.ReadAt progress ∧ statement.RunsAs loop) ∧
    (progress.cursor.current.kind = .repeatWord →
      ∃ loop condition,
        Loop.parse LoopHeader.repeated .repeatWord item progress = .ok loop reached ∧
        loop.ReadAt progress ∧ loop.first = none ∧ loop.condition = some condition ∧
        loop.last = none ∧ statement.RunsAs loop ∧
        ∀ machine tested, condition.eval machine = .ok (.bool false) tested →
          statement.Ends machine (.ok () tested)) := by
  constructor
  · intro keyword
    exact counting_runsAs (statementOver_of_for keyword ▸ parsed)
  · intro keyword
    obtain ⟨loop, condition, written, readAt, noFirst, present, noLast, runsAs⟩ :=
      repetition_runsAs (statementOver_of_repeat keyword ▸ parsed)
    refine ⟨loop, condition, written, readAt, noFirst, present, noLast, runsAs, ?_⟩
    intro machine tested evaluates
    have first : Loop.ClauseEnds loop.first machine (.ok () machine) := noFirst ▸ .missing machine
    have test : Loop.TestEnds loop.keyword loop.condition machine (.ok false tested) :=
      present ▸ .tested evaluates
    exact (runsAs.ends _ _).mpr (.started first (.done test))

/-- The parser in front of a loop with all three clauses. -/
def twoRounds : Progress :=
  .ofTokens (lex "FOR (i=0, i<2, i=i+1)\nSTART FOR\nPRINT: i\nEND FOR\n").tokens

theorem twoRounds_run_as_written :
    ∃ tree reached loop, statementOver parse twoRounds = .ok tree reached ∧
      Loop.parse LoopHeader.counted .forWord parse twoRounds = .ok loop reached ∧
      tree.RunsAs loop ∧
      (final (loop.run 3 ⟨⟨⟨[("i", ⟨.int, none⟩)]⟩, []⟩, ⟨[], false⟩, ""⟩)).output = "01" := by
  have computed : (match statementOver parse twoRounds with
      | .ok tree _ =>
        some (final (tree.exec 3 ⟨⟨⟨[("i", ⟨.int, none⟩)]⟩, []⟩, ⟨[], false⟩, ""⟩)).output
      | .error _ _ => none) = some "01" := by
    decide +kernel
  have keyword : twoRounds.cursor.current.kind = .forWord := by decide +kernel
  split at computed
  · rename_i tree reached parsed
    obtain ⟨loop, written, _, runsAs⟩ :=
      (parsed_loops_run_as_written parse twoRounds reached tree parsed).1 keyword
    refine ⟨tree, reached, loop, parsed, written, runsAs, ?_⟩
    rw [← runsAs.exec]
    exact Option.some.inj computed
  · cases computed

end Stmt

end LineScript
