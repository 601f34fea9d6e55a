/-
Module: LineScript.Proofs.Breakdown
Purpose: Where a breakdown of a running program comes from.
Trusted boundary: none
Main exports: Breaks, Breakable, Traces, breakdown_origin
-/
import LineScript.Proofs.OperatorBreakdown
import LineScript.Proofs.Reaches

/-!
A breakdown is passed on from where it arises to the end of the run. It arises at a prefix operator,
at an operator between operands, at a condition that is no truth value, or where input is read;
nothing else that runs can break down. `Call.breakdown_origin` finds that place among the calls that
the run reaches.
-/

namespace LineScript

/-! ### How the steps of a run fail -/

namespace Run

variable {α : Type} {machine reached : Machine} {stop : Stop}

/-- A result that is computed without the machine leaves it as it was. -/
theorem ofExcept_eq_ok {result : Except Stop α} {value : α} :
    ofExcept result machine = .ok value reached ↔ result = .ok value ∧ reached = machine := by
  cases result with
  | ok found => simp [ofExcept, eq_comm]
  | error other => simp [ofExcept]

/-- So does a failure. -/
theorem ofExcept_eq_error {result : Except Stop α} :
    ofExcept result machine = .error stop reached ↔ result = .error stop ∧ reached = machine := by
  cases result with
  | ok found => simp [ofExcept]
  | error other => simp [ofExcept, eq_comm]

/-! Operations on variables only fail with runtime errors. -/

theorem read_eq_error {name : Token} (failed : read name machine = .error stop reached) :
    ∃ error, stop = .error error := by
  rw [read_apply] at failed
  split at failed
  · cases failed
  · cases failed
    exact ⟨_, rfl⟩

theorem assign_eq_error {name : Token} {value : Value}
    (failed : assign name value machine = .error stop reached) : ∃ error, stop = .error error := by
  rw [assign_apply] at failed
  split at failed
  · cases failed
  · cases failed
    exact ⟨_, rfl⟩

theorem declare_eq_error {name : Token} {type : VarType} {given : Content}
    (failed : declare name type given machine = .error stop reached) :
    ∃ error, stop = .error error := by
  rw [declare_apply] at failed
  split at failed
  · cases failed
  · cases failed
    exact ⟨_, rfl⟩

/-- What fails inside an opened scope fails outside it, with the scope closed again. -/
theorem inScope_eq_error {action : Run α} :
    inScope action machine = .error stop reached ↔
      ∃ inside, action { machine with scopes := machine.scopes.push } = .error stop inside ∧
        reached = { inside with scopes := inside.scopes.pop } := by
  unfold inScope
  split
  · rename_i ending
    simp [ending]
  · rename_i other inside ending
    constructor
    · intro same
      cases same
      exact ⟨inside, ending, rfl⟩
    · rintro ⟨found, same, rfl⟩
      rw [ending] at same
      cases same
      rfl

end Run

/-- Only an input that interrupts breaks down. -/
theorem Run.readValues_eq_breakdown {token : Token} {machine reached : Machine} {cause : Breakdown}
    (failed : Run.readValues token machine = .error (.breakdown cause) reached) :
    cause = .interrupted ∧ machine.input.interrupts = true := by
  rcases Action.bind_eq_error.mp failed with unread | ⟨line, middle, _, second⟩
  · unfold Run.nextLine at unread
    split at unread
    · cases interrupts : machine.input.interrupts with
      | true =>
        simp only [interrupts, if_true] at unread
        cases unread
        exact ⟨rfl, rfl⟩
      | false =>
        simp [interrupts] at unread
    · cases unread
  · split at second
    · cases second
    · cases second

namespace Expr

variable {keyword : Option Token} {expr : Expr} {machine reached : Machine}

/-- How a condition stops a program when it evaluates to something that is no truth value. -/
def refusal (keyword : Option Token) (expr : Expr) (value : Value) : Stop :=
  match expr.render? with
  | some shown => .error ⟨.conditionNotBool value.kind shown, expr.token?.or keyword⟩
  | none => .breakdown .unprintable

/-- A truth value is the outcome of a condition. -/
theorem evalCondition_of_bool {truth : Bool}
    (evaluated : expr.eval machine = .ok (.bool truth) reached) :
    expr.evalCondition keyword machine = .ok truth reached :=
  Action.bind_of_ok evaluated

/-- Any other value is refused. -/
theorem evalCondition_of_other {value : Value} (evaluated : expr.eval machine = .ok value reached)
    (other : ∀ truth, value ≠ .bool truth) :
    expr.evalCondition keyword machine = .error (expr.refusal keyword value) reached := by
  unfold evalCondition
  rw [Action.bind_of_ok evaluated]
  cases value with
  | bool truth => exact absurd rfl (other truth)
  | null | int | float | text =>
    unfold refusal
    cases expr.render? with
    | none => rfl
    | some shown => rfl

/-- A condition fails as its expression does, or because it is no truth value. -/
theorem evalCondition_eq_error {stop : Stop} :
    expr.evalCondition keyword machine = .error stop reached ↔
      expr.eval machine = .error stop reached ∨
        ∃ value, expr.eval machine = .ok value reached ∧ (∀ truth, value ≠ .bool truth) ∧
          stop = expr.refusal keyword value := by
  constructor
  · intro failed
    rcases Action.bind_eq_error.mp failed with first | ⟨value, middle, evaluated, _⟩
    · exact .inl first
    · by_cases boolean : ∃ found, value = .bool found
      · obtain ⟨found, rfl⟩ := boolean
        rw [evalCondition_of_bool evaluated] at failed
        cases failed
      · have other : ∀ truth, value ≠ .bool truth := fun found same => boolean ⟨found, same⟩
        rw [evalCondition_of_other evaluated other] at failed
        cases failed
        exact .inr ⟨value, evaluated, other, rfl⟩
  · rintro (first | ⟨value, evaluated, other, rfl⟩)
    · exact Action.bind_of_error first
    · exact evalCondition_of_other evaluated other

end Expr

/-! ### The origin of a breakdown -/

namespace Call

/-- A breakdown arises in a call itself, not in a call that it makes. -/
inductive Breaks : Call → Breakdown → Prop where
  | unary {operator operand machine value middle cause}
      (evaluated : Expr.eval operand machine = .ok value middle)
      (fails : Operator.unary operator (some value) = .error (.breakdown cause)) :
      Breaks ⟨.eval (.unary operator operand), machine⟩ cause
  | binary {left operator right machine first middle second reached cause}
      (leftEvaluated : Expr.eval left machine = .ok first middle)
      (rightEvaluated : Expr.eval right middle = .ok second reached)
      (fails : Operator.binary operator (some first) (some second) = .error (.breakdown cause)) :
      Breaks ⟨.eval (.binary left operator right), machine⟩ cause
  | branch {keyword condition thenBranch elseBranch machine}
      (unprintable : Expr.render? condition = none) :
      Breaks ⟨.exec (.branch keyword condition thenBranch elseBranch), machine⟩ .unprintable
  | rounds {keyword condition body left machine} (unprintable : Expr.render? condition = none) :
      Breaks ⟨.rounds keyword condition body left, machine⟩ .unprintable
  | scan {first others machine} (interrupts : machine.input.interrupts = true) :
      Breaks ⟨.exec (.scan first others), machine⟩ .interrupted

/-- Some call that a call reaches breaks down by itself. -/
def Breakable (fuel : Nat) (call : Call) (cause : Breakdown) : Prop :=
  ∃ inner, Reaches fuel call inner ∧ Breaks inner cause

variable {fuel : Nat} {call inner : Call} {cause : Breakdown} {machine reached : Machine}

/-- What breaks down by itself is reached by itself. -/
theorem Breaks.breakable (breaks : Breaks call cause) : Breakable fuel call cause :=
  ⟨call, .refl, breaks⟩

/-- What a call inside reaches is reached from the call. -/
theorem Breakable.through (breakable : Breakable fuel inner cause)
    (invokes : Invokes fuel call inner) : Breakable fuel call cause := by
  obtain ⟨origin, reached, breaks⟩ := breakable
  exact ⟨origin, reached.head invokes, breaks⟩

/-- A failing expression makes its call fail. -/
theorem result_eval_eq_error {expr : Expr} {stop : Stop}
    (failed : expr.eval machine = .error stop reached) :
    result fuel ⟨.eval expr, machine⟩ = .error stop reached :=
  Action.bind_of_error failed

/-- What is shown of a call from the same about the calls it makes. -/
def Traces (fuel : Nat) (cause : Breakdown) (call : Call) : Prop :=
  ∀ reached, call.result fuel = .error (.breakdown cause) reached → Breakable fuel call cause

/-- A breakdown of an expression that a call evaluates. -/
theorem Breakable.of_eval {expr : Expr} (invokes : Invokes fuel call ⟨.eval expr, machine⟩)
    (traced : Traces fuel cause ⟨.eval expr, machine⟩)
    (failed : expr.eval machine = .error (.breakdown cause) reached) :
    Breakable fuel call cause :=
  (traced reached (result_eval_eq_error failed)).through invokes

/-- A breakdown of a condition that a call tests. -/
theorem Breakable.of_condition {keyword : Option Token} {condition : Expr}
    (invokes : Invokes fuel call ⟨.eval condition, machine⟩)
    (traced : Traces fuel cause ⟨.eval condition, machine⟩)
    (breaks : condition.render? = none → cause = .unprintable → Breaks call cause)
    (failed : condition.evalCondition keyword machine = .error (.breakdown cause) reached) :
    Breakable fuel call cause := by
  rcases Expr.evalCondition_eq_error.mp failed with evaluation | ⟨value, _, _, refused⟩
  · exact Breakable.of_eval invokes traced evaluation
  · unfold Expr.refusal at refused
    split at refused
    · cases refused
    · rename_i unprintable
      cases refused
      exact (breaks unprintable rfl).breakable

/-- An expression breaks down by its own operator or inside an operand. -/
theorem traces_eval (expr : Expr) (machine : Machine)
    (traced : ∀ inner, Invokes fuel ⟨.eval expr, machine⟩ inner → Traces fuel cause inner) :
    Traces fuel cause ⟨.eval expr, machine⟩ := by
  -- `Call.result` forgets the value of the expression, so the failure is the evaluation's own.
  intro reached ending
  have failed : expr.eval machine = .error (.breakdown cause) reached := by
    rcases Action.bind_eq_error.mp ending with first | ⟨_, _, _, second⟩
    · exact first
    · cases second
  cases expr with
  | literal value => cases failed
  | reference name =>
    obtain ⟨error, absurdity⟩ := Run.read_eq_error failed
    cases absurdity
  | group inner => exact Breakable.of_eval .group (traced _ .group) failed
  | assign name expr =>
    rcases Action.bind_eq_error.mp failed with first | ⟨value, middle, _, second⟩
    · exact Breakable.of_eval .assigned (traced _ .assigned) first
    · rcases Action.bind_eq_error.mp second with stored | ⟨_, _, _, third⟩
      · obtain ⟨error, absurdity⟩ := Run.assign_eq_error stored
        cases absurdity
      · cases third
  | unary operator operand =>
    rcases Action.bind_eq_error.mp failed with first | ⟨value, middle, evaluated, second⟩
    · exact Breakable.of_eval .operand (traced _ .operand) first
    · exact (Breaks.unary evaluated (Run.ofExcept_eq_error.mp second).1).breakable
  -- The operator itself is reached only when both sides were evaluated.
  | binary left operator right =>
    rcases Action.bind_eq_error.mp failed with first | ⟨value, middle, evaluated, second⟩
    · exact Breakable.of_eval .leftOperand (traced _ .leftOperand) first
    · have invokes : Invokes fuel ⟨.eval (.binary left operator right), machine⟩
          ⟨.eval right, middle⟩ := .rightOperand evaluated
      rcases Action.bind_eq_error.mp second with first | ⟨other, behind, evaluatedToo, third⟩
      · exact Breakable.of_eval invokes (traced _ invokes) first
      · exact (Breaks.binary evaluated evaluatedToo (Run.ofExcept_eq_error.mp third).1).breakable
  | logical left operator right =>
    rcases Action.bind_eq_error.mp failed with first | ⟨value, middle, evaluated, second⟩
    · exact Breakable.of_eval .leftSide (traced _ .leftSide) first
    · rcases Action.bind_eq_error.mp second with tested | ⟨truth, behind, tested, third⟩
      · exact absurd (Run.ofExcept_eq_error.mp tested).1 Operator.truth_ne_breakdown
      · obtain ⟨found, rfl⟩ := Run.ofExcept_eq_ok.mp tested
        -- Unless the left side decides, the right one is evaluated, and only it can break down.
        by_cases decided : truth = (operator.kind == .orWord)
        · rw [if_pos decided] at third
          cases third
        · rw [if_neg decided] at third
          have invokes : Invokes fuel ⟨.eval (.logical left operator right), machine⟩
              ⟨.eval right, behind⟩ := .rightSide evaluated found decided
          rcases Action.bind_eq_error.mp third with first | ⟨other, _, _, fourth⟩
          · exact Breakable.of_eval invokes (traced _ invokes) first
          · rcases Action.bind_eq_error.mp fourth with tested | ⟨_, _, _, fifth⟩
            · exact absurd (Run.ofExcept_eq_error.mp tested).1 Operator.truth_ne_breakdown
            · cases fifth

/-- A loop breaks down in its condition, in a round or in the rounds that follow. -/
theorem traces_rounds (keyword : Option Token) (condition : Expr) (body : Stmt) (left : Nat)
    (machine : Machine)
    (traced : ∀ inner, Invokes fuel ⟨.rounds keyword condition body left, machine⟩ inner →
      Traces fuel cause inner) :
    Traces fuel cause ⟨.rounds keyword condition body left, machine⟩ := by
  intro reached failed
  cases left with
  | zero => cases failed
  | succ left =>
    rcases Action.bind_eq_error.mp failed with first | ⟨truth, middle, tested, second⟩
    · refine Breakable.of_condition .test (traced _ .test) ?_ first
      rintro unprintable rfl
      exact .rounds unprintable
    · cases truth with
      | false => cases second
      | true =>
        rcases Action.bind_eq_error.mp second with ran | ⟨_, behind, ran, third⟩
        · exact (traced _ (.body tested) reached ran).through (.body tested)
        · exact (traced _ (.otherRounds tested ran) reached third).through (.otherRounds tested ran)

/-- A declaration of several names breaks down in an initial value. -/
theorem traces_declareEach (type : VarType) (names : List Declarator) (machine : Machine)
    (traced : ∀ inner, Invokes fuel ⟨.declareEach type names, machine⟩ inner →
      Traces fuel cause inner) :
    Traces fuel cause ⟨.declareEach type names, machine⟩ := by
  intro reached failed
  cases names with
  | nil => cases failed
  | cons declarator rest =>
    rcases Action.bind_eq_error.mp failed with first | ⟨given, middle, evaluated, second⟩
    · obtain ⟨name, initializer⟩ := declarator
      cases initializer with
      | none => cases first
      | some expr =>
        rcases Action.bind_eq_error.mp first with failure | ⟨_, _, _, third⟩
        · exact Breakable.of_eval .initializer (traced _ .initializer) failure
        · cases third
    · rcases Action.bind_eq_error.mp second with refused | ⟨_, behind, declared, third⟩
      · obtain ⟨error, absurdity⟩ := Run.declare_eq_error refused
        cases absurdity
      · exact (traced _ (.otherNames evaluated declared) reached third).through
          (.otherNames evaluated declared)

/-- Storing values that have been read never breaks down. -/
theorem traces_assignEach (pairs : List (Token × Value)) (machine : Machine)
    (traced : ∀ inner, Invokes fuel ⟨.assignEach pairs, machine⟩ inner →
      Traces fuel cause inner) :
    Traces fuel cause ⟨.assignEach pairs, machine⟩ := by
  intro reached failed
  cases pairs with
  | nil => cases failed
  | cons pair rest =>
    obtain ⟨name, value⟩ := pair
    rcases Action.bind_eq_error.mp failed with refused | ⟨_, middle, stored, second⟩
    · obtain ⟨error, absurdity⟩ := Run.assign_eq_error refused
      cases absurdity
    · exact (traced _ (.otherStores stored) reached second).through (.otherStores stored)

/-- A sequence breaks down in its first statement or in the rest. -/
theorem traces_execEach (statements : List Stmt) (machine : Machine)
    (traced : ∀ inner, Invokes fuel ⟨.execEach statements, machine⟩ inner →
      Traces fuel cause inner) :
    Traces fuel cause ⟨.execEach statements, machine⟩ := by
  intro reached failed
  cases statements with
  | nil => cases failed
  | cons statement rest =>
    rcases Action.bind_eq_error.mp failed with first | ⟨_, middle, ran, second⟩
    · exact (traced _ .first reached first).through .first
    · exact (traced _ (.others ran) reached second).through (.others ran)

/-- Of the statements only a conditional, by its condition, and a scan, by an interrupt, break down
by themselves; all else happens inside a call. -/
theorem traces_exec (statement : Stmt) (machine : Machine)
    (traced : ∀ inner, Invokes fuel ⟨.exec statement, machine⟩ inner → Traces fuel cause inner) :
    Traces fuel cause ⟨.exec statement, machine⟩ := by
  intro reached failed
  cases statement with
  | declare type names => exact (traced _ .declaration reached failed).through .declaration
  | expression expr => exact (traced _ .expression reached failed).through .expression
  | print expr =>
    rcases Action.bind_eq_error.mp failed with first | ⟨value, middle, _, second⟩
    · exact Breakable.of_eval .printed (traced _ .printed) first
    · rcases Action.bind_eq_error.mp second with shown | ⟨_, _, _, third⟩
      · exact absurd (Run.ofExcept_eq_error.mp shown).1 Operator.printed_ne_breakdown
      · cases third
  | scan first others =>
    rcases Action.bind_eq_error.mp failed with unread | ⟨values, middle, read, second⟩
    · obtain ⟨rfl, interrupts⟩ := Run.readValues_eq_breakdown unread
      exact (Breaks.scan interrupts).breakable
    -- The values go to the names as a call of its own, made only when there is one for each.
    · by_cases fitting : values.length = (first :: others).length
      · rw [if_pos fitting] at second
        exact (traced _ (.scanned read fitting) reached second).through (.scanned read fitting)
      · rw [if_neg fitting] at second
        cases second
  | branch keyword condition thenBranch elseBranch =>
    rcases Action.bind_eq_error.mp failed with first | ⟨truth, middle, tested, second⟩
    · refine Breakable.of_condition .condition (traced _ .condition) ?_ first
      rintro unprintable rfl
      exact .branch unprintable
    · cases truth with
      | true => exact (traced _ (.thenBranch tested) reached second).through (.thenBranch tested)
      | false =>
        cases elseBranch with
        | none => cases second
        | some other =>
          exact (traced _ (.elseBranch tested) reached second).through (.elseBranch tested)
  | loop keyword condition body => exact (traced _ .loop reached failed).through .loop
  | block statements =>
    obtain ⟨inside, ending, _⟩ := Run.inScope_eq_error.mp failed
    exact (traced _ .block inside ending).through .block

/-- Every breakdown has an origin. -/
theorem traces (call : Call) : Traces fuel cause call := by
  refine induct fuel (motive := Traces fuel cause) ?_ call
  intro call traced
  obtain ⟨task, machine⟩ := call
  cases task with
  | eval expr => exact traces_eval expr machine traced
  | exec statement => exact traces_exec statement machine traced
  | execEach statements => exact traces_execEach statements machine traced
  | declareEach type names => exact traces_declareEach type names machine traced
  | assignEach pairs => exact traces_assignEach pairs machine traced
  | rounds keyword condition body left =>
    exact traces_rounds keyword condition body left machine traced

/-- A call that ends in a breakdown reaches a call in which the breakdown arises. -/
theorem breakdown_origin (failed : call.result fuel = .error (.breakdown cause) reached) :
    ∃ inner, Reaches fuel call inner ∧ Breaks inner cause :=
  traces call reached failed

end Call

end LineScript
