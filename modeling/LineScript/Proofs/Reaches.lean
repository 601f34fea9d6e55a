/-
Module: LineScript.Proofs.Reaches
Purpose: What a running program runs on the way, and the machines it passes through.
Trusted boundary: none
Main exports: Task, Task.run, Call, Invokes, Reaches, Visits
-/
import Mathlib.Logic.Relation
import LineScript.Proofs.RunInvariant

/-!
Running a statement runs statements and expressions inside it, each from a machine that the run has
reached by then. A `Call` is something that is run together with the machine it starts in; `Invokes`
says which calls a call makes, and `Reaches` follows it any number of times. The machines that a run
passes through are those in which the calls it reaches start and end.
-/

namespace LineScript

/-- Something that is run. -/
inductive Task where
  | eval (expr : Expr)
  | exec (statement : Stmt)
  | execEach (statements : List Stmt)
  | declareEach (type : VarType) (names : List Declarator)
  | assignEach (pairs : List (Token × Value))
  /-- The rounds of a loop, at most as many as are left. -/
  | rounds (keyword : Option Token) (condition : Expr) (body : Stmt) (left : Nat)

/-- Runs a task. The value of an expression is dropped. -/
def Task.run (fuel : Nat) : Task → Run Unit
  | .eval expr => do
    let _ ← expr.eval
  | .exec statement => statement.exec fuel
  | .execEach statements => Stmt.execEach fuel statements
  | .declareEach type names => Run.declareEach type names
  | .assignEach pairs => Run.assignEach pairs
  | .rounds keyword condition body left =>
    Run.whileLoop (condition.evalCondition keyword) (body.exec fuel) left

/-- The size of a task: that of its trees, then the number of rounds or stores left. -/
noncomputable def Task.size : Task → Nat × Nat
  | .eval expr => (sizeOf expr, 0)
  | .exec statement => (sizeOf statement, 0)
  | .execEach statements => (sizeOf statements, 0)
  | .declareEach _ names => (sizeOf names, 0)
  | .assignEach pairs => (0, pairs.length)
  | .rounds _ condition body left => (sizeOf condition + sizeOf body, left)

/-- A task with the machine it starts in. -/
structure Call where
  task : Task
  machine : Machine

namespace Call

/-- How a call ends. -/
def result (fuel : Nat) (call : Call) : EStateM.Result Stop Machine Unit :=
  call.task.run fuel call.machine

/-- One call makes another, directly. -/
inductive Invokes (fuel : Nat) : Call → Call → Prop where
  | group {inner machine} :
      Invokes fuel ⟨.eval (.group inner), machine⟩ ⟨.eval inner, machine⟩
  | assigned {name expr machine} :
      Invokes fuel ⟨.eval (.assign name expr), machine⟩ ⟨.eval expr, machine⟩
  | operand {operator operand machine} :
      Invokes fuel ⟨.eval (.unary operator operand), machine⟩ ⟨.eval operand, machine⟩
  | leftOperand {left operator right machine} :
      Invokes fuel ⟨.eval (.binary left operator right), machine⟩ ⟨.eval left, machine⟩
  | rightOperand {left operator right machine value middle}
      (first : left.eval machine = .ok value middle) :
      Invokes fuel ⟨.eval (.binary left operator right), machine⟩ ⟨.eval right, middle⟩
  | leftSide {left operator right machine} :
      Invokes fuel ⟨.eval (.logical left operator right), machine⟩ ⟨.eval left, machine⟩
  | rightSide {left operator right machine value middle truth}
      (first : left.eval machine = .ok value middle)
      (found : Operator.truth operator (some value) = .ok truth)
      (undecided : truth ≠ (operator.kind == .orWord)) :
      Invokes fuel ⟨.eval (.logical left operator right), machine⟩ ⟨.eval right, middle⟩
  | expression {expr machine} :
      Invokes fuel ⟨.exec (.expression expr), machine⟩ ⟨.eval expr, machine⟩
  | printed {expr machine} :
      Invokes fuel ⟨.exec (.print expr), machine⟩ ⟨.eval expr, machine⟩
  | declaration {type names machine} :
      Invokes fuel ⟨.exec (.declare type names), machine⟩ ⟨.declareEach type names, machine⟩
  | initializer {type name expr rest machine} :
      Invokes fuel ⟨.declareEach type (⟨name, some expr⟩ :: rest), machine⟩ ⟨.eval expr, machine⟩
  | otherNames {type declarator rest machine given middle reached}
      (evaluated : declarator.initializer.mapM Expr.eval machine = .ok given middle)
      (declared : Run.declare declarator.name type given middle = .ok () reached) :
      Invokes fuel ⟨.declareEach type (declarator :: rest), machine⟩ ⟨.declareEach type rest, reached⟩
  | scanned {first others machine values middle}
      (read : Run.readValues first machine = .ok values middle)
      (fitting : values.length = (first :: others).length) :
      Invokes fuel ⟨.exec (.scan first others), machine⟩
        ⟨.assignEach ((first :: others).zip values), middle⟩
  | otherStores {name value rest machine middle}
      (stored : Run.assign name value machine = .ok () middle) :
      Invokes fuel ⟨.assignEach ((name, value) :: rest), machine⟩ ⟨.assignEach rest, middle⟩
  | condition {keyword condition thenBranch elseBranch machine} :
      Invokes fuel ⟨.exec (.branch keyword condition thenBranch elseBranch), machine⟩
        ⟨.eval condition, machine⟩
  | thenBranch {keyword condition thenBranch elseBranch machine middle}
      (tested : condition.evalCondition keyword machine = .ok true middle) :
      Invokes fuel ⟨.exec (.branch keyword condition thenBranch elseBranch), machine⟩
        ⟨.exec thenBranch, middle⟩
  | elseBranch {keyword condition thenBranch elseBranch machine middle}
      (tested : condition.evalCondition keyword machine = .ok false middle) :
      Invokes fuel ⟨.exec (.branch keyword condition thenBranch (some elseBranch)), machine⟩
        ⟨.exec elseBranch, middle⟩
  | loop {keyword condition body machine} :
      Invokes fuel ⟨.exec (.loop keyword condition body), machine⟩
        ⟨.rounds keyword condition body fuel, machine⟩
  | test {keyword condition body left machine} :
      Invokes fuel ⟨.rounds keyword condition body (left + 1), machine⟩ ⟨.eval condition, machine⟩
  | body {keyword condition body left machine middle}
      (tested : condition.evalCondition keyword machine = .ok true middle) :
      Invokes fuel ⟨.rounds keyword condition body (left + 1), machine⟩ ⟨.exec body, middle⟩
  | otherRounds {keyword condition body left machine middle reached}
      (tested : condition.evalCondition keyword machine = .ok true middle)
      (ran : body.exec fuel middle = .ok () reached) :
      Invokes fuel ⟨.rounds keyword condition body (left + 1), machine⟩
        ⟨.rounds keyword condition body left, reached⟩
  | block {statements machine} :
      Invokes fuel ⟨.exec (.block statements), machine⟩
        ⟨.execEach statements, { machine with scopes := machine.scopes.push }⟩
  | first {statement rest machine} :
      Invokes fuel ⟨.execEach (statement :: rest), machine⟩ ⟨.exec statement, machine⟩
  | others {statement rest machine middle}
      (ran : statement.exec fuel machine = .ok () middle) :
      Invokes fuel ⟨.execEach (statement :: rest), machine⟩ ⟨.execEach rest, middle⟩

/-- One call leads to another, directly or through others. -/
def Reaches (fuel : Nat) : Call → Call → Prop :=
  Relation.ReflTransGen (Invokes fuel)

/-- A run passes through a machine: some call that it reaches starts or ends there. -/
def Visits (fuel : Nat) (call : Call) (machine : Machine) : Prop :=
  ∃ inner, Reaches fuel call inner ∧
    (machine = inner.machine ∨ machine = Run.final (inner.result fuel))

/-! ### A call makes calls to smaller tasks only

Hence whatever follows for a call from the calls it makes holds of every call. The rounds of a loop
are as large a tree as the rounds after them, and are compared by their number instead. -/

/-- A call makes calls to smaller tasks only, or to the same task with less fuel left, as a loop
does. -/
theorem Invokes.size_lt {fuel : Nat} {call inner : Call} (invokes : Invokes fuel call inner) :
    Prod.Lex (· < ·) (· < ·) inner.task.size call.task.size := by
  cases invokes with
  | otherStores => exact Prod.Lex.right _ (Nat.lt_succ_self _)
  | otherRounds => exact Prod.Lex.right _ (Nat.lt_succ_self _)
  | @test _ condition body =>
    have positive : 0 < sizeOf body := by cases body <;> simp +arith
    exact Prod.Lex.left _ _ (Nat.lt_add_of_pos_right positive)
  | @body _ condition body =>
    have positive : 0 < sizeOf condition := by cases condition <;> simp +arith
    exact Prod.Lex.left _ _ (Nat.lt_add_of_pos_left positive)
  | _ =>
    apply Prod.Lex.left _ _
    simp +arith

/-- What holds of a call as soon as it holds of all calls that it makes holds of every call. -/
theorem induct (fuel : Nat) {motive : Call → Prop}
    (step : ∀ call, (∀ inner, Invokes fuel call inner → motive inner) → motive call)
    (call : Call) : motive call :=
  step call fun inner _ => induct fuel step inner
termination_by call.task.size
decreasing_by exact Invokes.size_lt ‹_›

end Call

/-! ### What every change preserves holds of every machine that is passed through -/

namespace Machine.Invariant

open Call

variable {holds : Machine → Prop} {fuel : Nat} {call inner : Call}

/-- A task leaves an invariant of machines as it finds it, however it ends. -/
theorem run (invariant : Invariant holds) (fuel : Nat) (task : Task) :
    Run.Keeps holds (task.run fuel) := by
  have simulation := invariant.simulation
  rw [← Run.simulated_iff_keeps 1]
  cases task with
  | eval expr => exact (simulation.eval 1 expr).bind fun _ => Run.Simulated.pure ()
  | exec statement => exact simulation.exec (.inl rfl) 0 statement
  | execEach statements => exact simulation.execEach (.inl rfl) 0 statements
  | declareEach type names => exact simulation.declareEach 0 type names
  | assignEach pairs => exact simulation.assignEach 1 pairs
  | rounds keyword condition body left =>
    exact Run.Simulated.whileLoop (simulation.evalCondition 1 keyword condition)
      (simulation.exec (.inl rfl) 0 body) (.inl rfl)

/-- An invariant that holds where a call is made holds where the calls inside it are made. -/
theorem invokes (invariant : Invariant holds) (invokes : Invokes fuel call inner)
    (start : holds call.machine) : holds inner.machine := by
  cases invokes with
  | rightOperand first => exact (invariant.eval _).of_ok first start
  | rightSide first => exact (invariant.eval _).of_ok first start
  | otherNames evaluated declared =>
    have middle := (invariant.initializer _).of_ok evaluated start
    exact (invariant.declare _ _ _).of_ok declared middle
  | scanned read => exact (invariant.readValues _).of_ok read start
  | otherStores stored => exact (invariant.assign _ _).of_ok stored start
  | thenBranch tested => exact (invariant.evalCondition _ _).of_ok tested start
  | elseBranch tested => exact (invariant.evalCondition _ _).of_ok tested start
  | body tested => exact (invariant.evalCondition _ _).of_ok tested start
  | otherRounds tested ran =>
    have middle := (invariant.evalCondition _ _).of_ok tested start
    exact (invariant.exec fuel _).of_ok ran middle
  | block => exact invariant.push _ start
  | others ran => exact (invariant.exec fuel _).of_ok ran start
  | group | assigned | operand | leftOperand | leftSide | expression | printed | declaration
  | initializer | condition | loop | test | first => exact start

/-- It holds where all calls are made that are reached from there, however deep. -/
theorem reaches (invariant : Invariant holds) (reaches : Reaches fuel call inner)
    (start : holds call.machine) : holds inner.machine := by
  induction reaches with
  | refl => exact start
  | tail _ last inductionHypothesis => exact invariant.invokes last inductionHypothesis

/-- It holds of every machine that is passed through. -/
theorem visits (invariant : Invariant holds) {machine : Machine}
    (visits : Visits fuel call machine) (start : holds call.machine) : holds machine := by
  obtain ⟨inner, reached, starts | ends⟩ := visits
  · rw [starts]
    exact invariant.reaches reached start
  · rw [ends]
    exact invariant.run fuel inner.task _ (invariant.reaches reached start)

end Machine.Invariant

end LineScript
