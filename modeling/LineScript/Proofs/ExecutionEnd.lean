/-
Module: LineScript.Proofs.ExecutionEnd
Purpose: How the execution of a parsed program can end.
Trusted boundary: none
Main exports: Task.WellFormed, IsUndefinedRemainder, execute_ends
-/
import LineScript.Proofs.Breakdown
import LineScript.Proofs.ParsedTree
import LineScript.Proofs.SourceLiteral
import LineScript.Session

/-!
The tree of a parsed program holds operators only where they belong, and only literals that can be
printed. Everything that its execution runs is part of that tree, so the breakdowns for misplaced
operators and unprintable conditions are out of reach. What is left is the remainder of an infinity,
and an interruption by whoever feeds the input.
-/

namespace LineScript

/-- All expressions of a task are well formed. -/
def Task.WellFormed : Task → Prop
  | .eval expr => expr.WellFormed
  | .exec statement => statement.WellFormed
  | .execEach statements => Stmt.EachWellFormed statements
  | .declareEach _ names => ∀ declarator ∈ names, declarator.WellFormed
  | .assignEach _ => True
  | .rounds _ condition body _ => condition.WellFormed ∧ body.WellFormed

namespace Call

variable {fuel : Nat} {call inner : Call} {cause : Breakdown}

theorem Invokes.wellFormed (invokes : Invokes fuel call inner)
    (wellFormed : call.task.WellFormed) : inner.task.WellFormed := by
  cases invokes with
  | group | assigned | expression | printed | declaration | loop | block => exact wellFormed
  | operand => exact wellFormed.2
  | leftOperand => exact wellFormed.2.1
  | rightOperand => exact wellFormed.2.2
  | leftSide => exact wellFormed.1
  | rightSide => exact wellFormed.2
  | initializer => exact (List.forall_mem_cons.mp wellFormed).1 _ rfl
  | otherNames => exact (List.forall_mem_cons.mp wellFormed).2
  | scanned => trivial
  | otherStores => trivial
  | condition => exact wellFormed.1
  | thenBranch => exact wellFormed.2.1
  | elseBranch => exact wellFormed.2.2
  | test => exact wellFormed.1
  | body => exact wellFormed.2
  | otherRounds => exact wellFormed
  | first => exact wellFormed.1
  | others => exact wellFormed.2

theorem Reaches.wellFormed (reaches : Reaches fuel call inner)
    (wellFormed : call.task.WellFormed) : inner.task.WellFormed := by
  induction reaches with
  | refl => exact wellFormed
  | tail _ last inductionHypothesis => exact last.wellFormed inductionHypothesis

/-- The call is to evaluate a remainder whose operands turn out to have none. -/
def IsUndefinedRemainder (call : Call) : Prop :=
  ∃ left operator right first middle second reached leftNumber rightNumber,
    call.task = .eval (.binary left operator right) ∧ operator.kind = .modulo ∧
    left.eval call.machine = .ok first middle ∧ right.eval middle = .ok second reached ∧
    first.number? = some leftNumber ∧ second.number? = some rightNumber ∧
    Number.IsUndefinedRemainder leftNumber rightNumber

/-- The breakdowns of a call with a well-formed tree. -/
theorem Breaks.cases_wellFormed (breaks : Breaks call cause) (wellFormed : call.task.WellFormed) :
    cause = .infiniteDividend ∧ IsUndefinedRemainder call ∨
      cause = .interrupted ∧ call.machine.input.interrupts = true := by
  cases breaks with
  | unary _ fails => exact absurd fails (Operator.unary_ne_breakdown wellFormed.1)
  | binary leftEvaluated rightEvaluated fails =>
    obtain ⟨remainder, same, leftNumber, rightNumber, leftIs, rightIs, undefined⟩ :=
      Operator.binary_eq_breakdown wellFormed.1 fails
    exact .inl ⟨same, _, _, _, _, _, _, _, leftNumber, rightNumber, rfl, remainder, leftEvaluated,
      rightEvaluated, leftIs, rightIs, undefined⟩
  | branch unprintable =>
    rw [Expr.render?, if_pos wellFormed.1.isPrintable] at unprintable
    cases unprintable
  | rounds unprintable =>
    rw [Expr.render?, if_pos wellFormed.1.isPrintable] at unprintable
    cases unprintable
  | scan interrupts => exact .inr ⟨rfl, interrupts⟩

end Call

/-- Whether an input interrupts never changes. -/
theorem Machine.interrupts_invariant (flag : Bool) :
    Machine.Invariant fun machine => machine.input.interrupts = flag where
  assign := by
    intro name value machine start
    rw [Run.assign_apply]
    split
    · exact start
    · exact start
  declare := by
    intro name type given machine start
    rw [Run.declare_apply]
    split
    · exact start
    · exact start
  write := by
    intro machine text start
    exact start
  nextLine := by
    intro token machine start
    unfold Run.nextLine
    split
    · exact start
    · exact start
  push := by
    intro machine start
    exact start
  pop := by
    intro machine start
    exact start

namespace Session

/-- How the execution of a parsed program ends if it ends at all. It reaches its end and reports
nothing; or it stops at a runtime error and reports it, once; or it breaks down, which happens only
at a remainder of an infinity by something that is neither zero nor not a number, and when whoever
feeds the input interrupts it. -/
theorem execute_ends (fuel : Nat) (source : String) (program : List Stmt) (session : Session)
    (parsed : (Program.parse (lex source).tokens).program = some program)
    (halts : (session.execute fuel program).1 ≠ .outOfFuel) :
    ((session.execute fuel program).1 = .executed ∧
      ((∃ machine, Stmt.execEach fuel program session.machine = .ok () machine ∧
          (session.execute fuel program).2 = ⟨machine, session.log⟩) ∨
        ∃ error machine, Stmt.execEach fuel program session.machine =
            .error (.error error) machine ∧
          (session.execute fuel program).2 = ⟨machine, session.log.addRuntime error⟩ ∧
          (session.execute fuel program).2.log.reports = session.log.reports ++ [error.report] ∧
          error.report.kind = .runtime)) ∨
    ((session.execute fuel program).1 = .broken .infiniteDividend ∧
      (session.execute fuel program).2.log = session.log ∧
      ∃ inner, Call.Reaches fuel ⟨.execEach program, session.machine⟩ inner ∧
        inner.IsUndefinedRemainder) ∨
    ((session.execute fuel program).1 = .broken .interrupted ∧
      (session.execute fuel program).2.log = session.log ∧
      session.machine.input.interrupts = true) := by
  have wellFormed : Stmt.EachWellFormed program :=
    Program.parse_wellFormed (lex_printable source) parsed
  cases ending : Stmt.execEach fuel program session.machine with
  | ok value machine =>
    have shape : session.execute fuel program = (.executed, ⟨machine, session.log⟩) := by
      simp [execute, ending]
    rw [shape]
    exact .inl ⟨rfl, .inl ⟨machine, rfl, rfl⟩⟩
  | error stop machine =>
    cases stop with
    | error error =>
      have shape : session.execute fuel program =
          (.executed, ⟨machine, session.log.addRuntime error⟩) := by
        simp [execute, ending]
      rw [shape]
      exact .inl ⟨rfl, .inr ⟨error, machine, rfl, rfl, rfl, rfl⟩⟩
    | outOfFuel => simp [execute, ending] at halts
    | breakdown cause =>
      have shape : session.execute fuel program =
          (.broken cause, ⟨machine, session.log⟩) := by
        simp [execute, ending]
      rw [shape]
      -- A breakdown comes from one call of the run: an undefined remainder or an interrupted read.
      have failed : Call.result fuel ⟨.execEach program, session.machine⟩ =
          .error (.breakdown cause) machine := ending
      obtain ⟨inner, reached, breaks⟩ := Call.breakdown_origin failed
      rcases breaks.cases_wellFormed (reached.wellFormed wellFormed) with
        ⟨rfl, undefined⟩ | ⟨rfl, interrupts⟩
      · exact .inr (.inl ⟨rfl, rfl, inner, reached, undefined⟩)
      -- No step changes whether the input interrupts, so the session's own input does.
      · have same := (Machine.interrupts_invariant session.machine.input.interrupts).reaches
          reached rfl
        exact .inr (.inr ⟨rfl, rfl, same ▸ interrupts⟩)

/-- A script that squares a number until it is infinite, and then asks for its remainder. -/
def squaring : String :=
  "SCRIPT AREA\nSTART SCRIPT\nDECLARE FLOAT x=9\nREPEAT WHEN(x<x*x)\nSTART REPEAT\nx=x*x\n" ++
    "END REPEAT\nx%2\nEND SCRIPT"

theorem squaring_ends :
    ∃ program, (Program.parse (lex squaring).tokens).program = some program ∧
      ((start ⟨[], false⟩).execute 12 program).1 = .broken .infiniteDividend ∧
      ∃ inner, Call.Reaches 12 ⟨.execEach program, .start ⟨[], false⟩⟩ inner ∧
        inner.IsUndefinedRemainder := by
  have runs : ∃ program, (Program.parse (lex squaring).tokens).program = some program ∧
      ((start ⟨[], false⟩).execute 12 program).1 = .broken .infiniteDividend := by
    have computed : ((Program.parse (lex squaring).tokens).program.map fun program =>
        ((start ⟨[], false⟩).execute 12 program).1) = some (.broken .infiniteDividend) := by
      decide +kernel
    exact Option.map_eq_some_iff.mp computed
  obtain ⟨program, parsed, broken⟩ := runs
  refine ⟨program, parsed, broken, ?_⟩
  rcases execute_ends 12 squaring program (start ⟨[], false⟩) parsed (by simp [broken]) with
    ⟨executed, _⟩ | ⟨_, _, origin⟩ | ⟨interrupted, _⟩
  · simp [broken] at executed
  · exact origin
  · simp [broken] at interrupted

end Session

end LineScript
