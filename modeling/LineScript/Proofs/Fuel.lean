/-
Module: LineScript.Proofs.Fuel
Purpose: How a run ends does not depend on its fuel, once it ends.
Trusted boundary: none
Main exports: Finished, AlwaysEnds, Settles, Ends, eachEnds_of_finished
-/
import LineScript.Proofs.RunSimulation

/-!
Only loops use fuel: no expression runs out of it, and a run that ends with some fuel ends in the
same way with more. So a statement has an ending of its own, the one it has with every large enough
fuel. A statement without an ending runs for ever.
-/

namespace LineScript

namespace Run

variable {α β : Type}

/-- The run was followed to its end. -/
def Finished (ending : Ending α) : Prop :=
  ∀ machine, ending ≠ .error .outOfFuel machine

theorem finished_ok (value : α) (machine : Machine) :
    Finished (.ok value machine : Ending α) := by
  intro other impossible
  cases impossible

/-- A run that stops has ended by itself unless it stopped for want of fuel. -/
theorem finished_error {stop : Stop} {machine : Machine} :
    Finished (.error stop machine : Ending α) ↔ stop ≠ .outOfFuel := by
  constructor
  · intro finished unfinished
    exact finished machine (unfinished ▸ rfl)
  · intro ends other same
    cases same
    exact ends rfl

/-! ### Expressions need no fuel -/

/-- Wherever the action is started, it ends. -/
def AlwaysEnds (action : Run α) : Prop :=
  ∀ machine, Finished (action machine)

theorem AlwaysEnds.pure (value : α) : AlwaysEnds (Pure.pure value : Run α) :=
  finished_ok value

theorem AlwaysEnds.throw {stop : Stop} (ends : stop ≠ .outOfFuel) :
    AlwaysEnds (throw stop : Run α) :=
  fun _ => finished_error.mpr ends

/-- An action that needs no fuel, followed by others that need none, needs none. -/
theorem AlwaysEnds.bind {action : Run α} {next : α → Run β} (first : AlwaysEnds action)
    (second : ∀ value, AlwaysEnds (next value)) : AlwaysEnds (action >>= next) := by
  intro machine
  have firstEnds := first machine
  rw [Action.bind_apply]
  cases ending : action machine with
  | ok value reached => exact second value reached
  | error stop reached =>
    rw [ending] at firstEnds
    exact finished_error.mpr (finished_error.mp firstEnds)

/-- A result that was computed without a machine needs no fuel. -/
theorem AlwaysEnds.ofExcept {result : Except Stop α} (ends : result ≠ .error .outOfFuel) :
    AlwaysEnds (ofExcept result) := by
  cases result with
  | ok value => exact AlwaysEnds.pure value
  | error stop => exact AlwaysEnds.throw fun unfinished => ends (unfinished ▸ rfl)

theorem AlwaysEnds.read (name : Token) : AlwaysEnds (read name) := by
  intro machine
  rw [read_apply]
  split
  · exact finished_ok _ _
  · exact finished_error.mpr (by simp)

theorem AlwaysEnds.assign (name : Token) (value : Value) : AlwaysEnds (assign name value) := by
  intro machine
  rw [assign_apply]
  split
  · exact finished_ok _ _
  · exact finished_error.mpr (by simp)

end Run

namespace Operator

variable {operator : Token} {operand left right : Content}

theorem truth_ne_outOfFuel : truth operator operand ≠ .error .outOfFuel := by
  unfold truth
  split
  · simp
  · simp

theorem number_ne_outOfFuel : number operator operand ≠ .error .outOfFuel := by
  unfold number
  split
  · simp
  · simp

theorem printed_ne_outOfFuel {token : Option Token} :
    printed token operand ≠ .error .outOfFuel := by
  unfold printed
  split
  · simp
  · simp

/-- No prefix operator runs out of fuel, whatever it is applied to. -/
theorem unary_ne_outOfFuel : unary operator operand ≠ .error .outOfFuel := by
  unfold unary
  split
  · simp [Action.except_bind_eq_error, truth_ne_outOfFuel, pure, Except.pure]
  · simp [Action.except_bind_eq_error, number_ne_outOfFuel, pure, Except.pure]
  · simp [Action.except_bind_eq_error, number_ne_outOfFuel, pure, Except.pure]
  · simp

/-- A failure of arithmetic is a runtime error or a breakdown, never a want of fuel. -/
theorem numberResult_ne_outOfFuel {result : Except Number.Fault Number} :
    numberResult operator result ≠ .error .outOfFuel := by
  unfold numberResult
  split
  · simp
  · rename_i fault
    cases fault <;> simp [stopOfFault]

theorem onNumbers_ne_outOfFuel {left right : Number} :
    onNumbers operator left right ≠ .error .outOfFuel := by
  unfold onNumbers
  split
  case h_1 | h_2 | h_3 | h_4 | h_5 => exact numberResult_ne_outOfFuel
  all_goals simp

/-- No infix operator runs out of fuel, whatever it is applied to. -/
theorem binary_ne_outOfFuel : binary operator left right ≠ .error .outOfFuel := by
  unfold binary
  split
  · simp [Action.except_bind_eq_error, printed_ne_outOfFuel, pure, Except.pure]
  · simp
  · simp
  · split
    · exact onNumbers_ne_outOfFuel
    · simp

end Operator

/-- The evaluation of an expression ends. -/
theorem Expr.eval_alwaysEnds (expr : Expr) : Run.AlwaysEnds expr.eval := by
  induction expr with
  | literal value => exact .pure value
  | reference name => exact .read name
  | assign name expr inductionHypothesis =>
    exact inductionHypothesis.bind fun value => (Run.AlwaysEnds.assign name value).bind fun _ =>
      .pure value
  | unary operator operand inductionHypothesis =>
    exact inductionHypothesis.bind fun _ => .ofExcept Operator.unary_ne_outOfFuel
  | binary left operator right leftHypothesis rightHypothesis =>
    exact leftHypothesis.bind fun _ => rightHypothesis.bind fun _ =>
      .ofExcept Operator.binary_ne_outOfFuel
  | logical left operator right leftHypothesis rightHypothesis =>
    refine leftHypothesis.bind fun _ =>
      (Run.AlwaysEnds.ofExcept Operator.truth_ne_outOfFuel).bind fun first => ?_
    split
    · exact .pure _
    · exact rightHypothesis.bind fun _ =>
        (Run.AlwaysEnds.ofExcept Operator.truth_ne_outOfFuel).bind fun _ => .pure _
  | group inner inductionHypothesis => exact inductionHypothesis

/-- An expression never stops for want of fuel. -/
theorem Expr.stop_ne_outOfFuel {expr : Expr} {machine reached : Machine} {stop : Stop}
    (failed : expr.eval machine = .error stop reached) : stop ≠ .outOfFuel := by
  have ends := expr.eval_alwaysEnds machine
  rw [failed] at ends
  exact Run.finished_error.mp ends

/-! ### More fuel changes nothing -/

/-- An action behaves like itself. -/
theorem Run.Simulated.refl {α : Type} (action : Run α) : Simulated False Eq action action := by
  rintro machine _ rfl
  cases action machine with
  | ok value reached => exact .ok value rfl
  | error stop reached => exact .error stop rfl

/-- Every action of the language behaves alike from equal machines. -/
theorem Machine.eq_simulation : Simulation fun _ => Eq where
  read _ name := .refl _
  assign _ name value := .refl _
  declare _ name type given := .refl _
  write _ text := .refl _
  nextLine _ token := .refl _
  push := by
    rintro _ machine _ rfl
    rfl
  pop := by
    rintro _ machine _ rfl
    rfl

namespace Run

variable {α : Type}

/-- If an action with less fuel has ended, one that behaves alike with more fuel has ended the same
way. -/
theorem Simulated.eq_of_finished {action more : Run α} (simulated : Simulated True Eq action more)
    {machine : Machine} (finished : Finished (action machine)) :
    more machine = action machine := by
  have ending := simulated machine machine rfl
  generalize action machine = result at ending finished ⊢
  generalize more machine = other at ending ⊢
  cases ending with
  | ok value ends => rw [ends]
  | error stop ends => rw [ends]
  | unfinished => exact absurd rfl (finished _)

/-- An action that takes fuel ends in this way whenever it has enough of it. -/
def Settles (action : Nat → Run α) (machine : Machine) (ending : Ending α) : Prop :=
  Finished ending ∧ ∃ enough, ∀ fuel, enough ≤ fuel → action fuel machine = ending

end Run

namespace Stmt

open Run

/-- How a statement ends that is started in a machine. -/
def Ends (statement : Stmt) : Machine → Ending Unit → Prop :=
  Settles fun fuel => statement.exec fuel

/-- How statements end that are run one after the other. -/
def EachEnds (statements : List Stmt) : Machine → Ending Unit → Prop :=
  Settles fun fuel => execEach fuel statements

/-- Statements that end with some fuel have that ending. -/
theorem eachEnds_of_finished {fuel : Nat} {statements : List Stmt} {machine : Machine}
    (finished : Finished (execEach fuel statements machine)) :
    EachEnds statements machine (execEach fuel statements machine) := by
  refine ⟨finished, fuel, fun larger more => ?_⟩
  have simulated : Simulated True Eq (execEach fuel statements) (execEach larger statements) :=
    Machine.eq_simulation.execEach (.inr ⟨trivial, more⟩) 0 statements
  exact simulated.eq_of_finished finished

end Stmt

end LineScript
