/-
Module: LineScript.Proofs.LoopRules
Purpose: What a loop means as it is written, by rules and as an action.
Trusted boundary: none
Main exports: LoopHeader, Loop, Loop.Ends, Loop.run, RoundsEnd.enough, settles_iff
-/
import LineScript.Proofs.Breakdown
import LineScript.Proofs.Fuel

/-!
A loop has a clause that is evaluated first, a condition, a clause that is evaluated last in every
round, and statements that are run in between in a scope of their own. Every clause may be missing.
The rules say how such a loop ends without any other kind of loop, scope or literal; the action
`Loop.run` follows them round by round. The action ends, with enough fuel, exactly as the rules say.
-/

namespace LineScript

open Run

/-- What stands in front of the statements of a loop. Every clause may be missing. -/
structure LoopHeader where
  keyword : Token
  /-- Evaluated once, before all rounds. -/
  first : Option Expr
  condition : Option Expr
  /-- Evaluated at the end of every round. -/
  last : Option Expr

/-- A loop as it is written. -/
structure Loop extends LoopHeader where
  statements : List Stmt

namespace Loop

/-! ### The rules -/

/-- How a clause ends that is evaluated for its effects. A missing one does nothing. -/
inductive ClauseEnds : Option Expr → Machine → Ending Unit → Prop where
  | missing (machine : Machine) : ClauseEnds none machine (.ok () machine)
  | evaluated {expr : Expr} {machine reached : Machine} {value : Value}
      (evaluates : expr.eval machine = .ok value reached) :
      ClauseEnds (some expr) machine (.ok () reached)
  | failed {expr : Expr} {machine reached : Machine} {stop : Stop}
      (fails : expr.eval machine = .error stop reached) :
      ClauseEnds (some expr) machine (.error stop reached)

/-- How the test of a condition ends. A missing condition holds. One that is no truth value is an
error at the condition's own token, or else at the keyword. -/
inductive TestEnds (keyword : Token) : Option Expr → Machine → Ending Bool → Prop where
  | missing (machine : Machine) : TestEnds keyword none machine (.ok true machine)
  | tested {expr : Expr} {machine reached : Machine} {truth : Bool}
      (evaluates : expr.eval machine = .ok (.bool truth) reached) :
      TestEnds keyword (some expr) machine (.ok truth reached)
  | failed {expr : Expr} {machine reached : Machine} {stop : Stop}
      (fails : expr.eval machine = .error stop reached) :
      TestEnds keyword (some expr) machine (.error stop reached)
  | notBool {expr : Expr} {machine reached : Machine} {value : Value}
      (evaluates : expr.eval machine = .ok value reached) (other : ∀ truth, value ≠ .bool truth)
      (printable : expr.isPrintable) :
      TestEnds keyword (some expr) machine
        (.error (.error ⟨.conditionNotBool value.kind expr.render,
          expr.token?.or (some keyword)⟩) reached)
  /-- The message would show a literal that no source text can hold. -/
  | unprintable {expr : Expr} {machine reached : Machine} {value : Value}
      (evaluates : expr.eval machine = .ok value reached) (other : ∀ truth, value ≠ .bool truth)
      (unprintable : expr.isPrintable = false) :
      TestEnds keyword (some expr) machine (.error (.breakdown .unprintable) reached)

/-- How statements end that are run in a fresh scope, which is closed however they end. -/
inductive BodyEnds (statements : List Stmt) (machine : Machine) : Ending Unit → Prop where
  | done {reached : Machine}
      (ends : Stmt.EachEnds statements { machine with scopes := machine.scopes.push }
        (.ok () reached)) :
      BodyEnds statements machine (.ok () { reached with scopes := reached.scopes.pop })
  | failed {reached : Machine} {stop : Stop}
      (ends : Stmt.EachEnds statements { machine with scopes := machine.scopes.push }
        (.error stop reached)) :
      BodyEnds statements machine (.error stop { reached with scopes := reached.scopes.pop })

/-- How the rounds of a loop end: when the condition does not hold, or at the first failure. -/
inductive RoundsEnd (loop : Loop) : Machine → Ending Unit → Prop where
  | testFailed {machine reached : Machine} {stop : Stop}
      (test : TestEnds loop.keyword loop.condition machine (.error stop reached)) :
      RoundsEnd loop machine (.error stop reached)
  | done {machine reached : Machine}
      (test : TestEnds loop.keyword loop.condition machine (.ok false reached)) :
      RoundsEnd loop machine (.ok () reached)
  | bodyFailed {machine tested reached : Machine} {stop : Stop}
      (test : TestEnds loop.keyword loop.condition machine (.ok true tested))
      (body : BodyEnds loop.statements tested (.error stop reached)) :
      RoundsEnd loop machine (.error stop reached)
  | lastFailed {machine tested ran reached : Machine} {stop : Stop}
      (test : TestEnds loop.keyword loop.condition machine (.ok true tested))
      (body : BodyEnds loop.statements tested (.ok () ran))
      (last : ClauseEnds loop.last ran (.error stop reached)) :
      RoundsEnd loop machine (.error stop reached)
  | again {machine tested ran next : Machine} {ending : Ending Unit}
      (test : TestEnds loop.keyword loop.condition machine (.ok true tested))
      (body : BodyEnds loop.statements tested (.ok () ran))
      (last : ClauseEnds loop.last ran (.ok () next)) (rest : RoundsEnd loop next ending) :
      RoundsEnd loop machine ending

/-- How a loop ends. Its first clause is evaluated once. -/
inductive Ends (loop : Loop) (machine : Machine) : Ending Unit → Prop where
  | firstFailed {reached : Machine} {stop : Stop}
      (first : ClauseEnds loop.first machine (.error stop reached)) :
      Ends loop machine (.error stop reached)
  | started {begun : Machine} {ending : Ending Unit}
      (first : ClauseEnds loop.first machine (.ok () begun)) (rounds : RoundsEnd loop begun ending) :
      Ends loop machine ending

/-! ### The action -/

/-- Evaluates a clause, if it is there, for its effects. -/
def evalClause : Option Expr → Run Unit
  | none => return ()
  | some expr => do
    let _ ← expr.eval

/-- Tests a condition, a missing one always holding. -/
def test (keyword : Token) : Option Expr → Run Bool
  | none => return true
  | some expr => expr.evalCondition (some keyword)

/-- The rounds of a loop, at most as many as are left. -/
def rounds (fuel : Nat) (loop : Loop) : Nat → Run Unit
  | 0 => throw .outOfFuel
  | left + 1 => do
    if ← test loop.keyword loop.condition then
      inScope (Stmt.execEach fuel loop.statements)
      evalClause loop.last
      rounds fuel loop left

/-- Runs a loop. -/
def run (fuel : Nat) (loop : Loop) : Run Unit := do
  evalClause loop.first
  rounds fuel loop fuel

/-! ### The action follows the rules -/

variable {machine : Machine}

/-- The action for a clause has just the endings of the rule. -/
theorem evalClause_iff {clause : Option Expr} {ending : Ending Unit} :
    evalClause clause machine = ending ↔ ClauseEnds clause machine ending := by
  constructor
  · rintro rfl
    cases clause with
    | none => exact .missing machine
    | some expr =>
      rw [evalClause, Action.bind_apply]
      cases evaluates : expr.eval machine with
      | ok value reached => exact .evaluated evaluates
      | error stop reached => exact .failed evaluates
  · intro ends
    cases ends with
    | missing => rfl
    | evaluated evaluates => exact Action.bind_of_ok evaluates
    | failed fails => exact Action.bind_of_error fails

/-- So has the action for a condition. -/
theorem test_iff {keyword : Token} {condition : Option Expr} {ending : Ending Bool} :
    test keyword condition machine = ending ↔ TestEnds keyword condition machine ending := by
  constructor
  · rintro rfl
    cases condition with
    | none => exact .missing machine
    | some expr =>
      rw [test]
      cases evaluates : expr.eval machine with
      | error stop reached =>
        rw [Expr.evalCondition, Action.bind_of_error evaluates]
        exact .failed evaluates
      | ok value reached =>
        -- Any other value is refused, and the refusal prints the expression when it can.
        by_cases boolean : ∃ truth, value = .bool truth
        · obtain ⟨truth, rfl⟩ := boolean
          rw [Expr.evalCondition_of_bool evaluates]
          exact .tested evaluates
        · have other : ∀ truth, value ≠ .bool truth := fun truth same => boolean ⟨truth, same⟩
          rw [Expr.evalCondition_of_other evaluates other, Expr.refusal, Expr.render?]
          cases printable : expr.isPrintable with
          | true => exact .notBool evaluates other printable
          | false => exact .unprintable evaluates other printable
  · intro ends
    cases ends with
    | missing => rfl
    | tested evaluates => exact Expr.evalCondition_of_bool evaluates
    | failed fails => exact Action.bind_of_error fails
    | notBool evaluates other printable =>
      rw [test, Expr.evalCondition_of_other evaluates other, Expr.refusal, Expr.render?,
        if_pos printable]
    | unprintable evaluates other unprintable =>
      rw [test, Expr.evalCondition_of_other evaluates other, Expr.refusal, Expr.render?,
        unprintable]
      rfl

/-- No ending of a condition hangs on fuel. -/
theorem TestEnds.finished {keyword : Token} {condition : Option Expr} {ending : Ending Bool}
    (ends : TestEnds keyword condition machine ending) : Finished ending := by
  cases ends with
  | missing | tested => exact finished_ok _ _
  | failed fails => exact finished_error.mpr (Expr.stop_ne_outOfFuel fails)
  | notBool | unprintable => exact finished_error.mpr (by simp)

/-- Nor does an ending of a clause. -/
theorem ClauseEnds.finished {clause : Option Expr} {ending : Ending Unit}
    (ends : ClauseEnds clause machine ending) : Finished ending := by
  cases ends with
  | missing | evaluated => exact finished_ok _ _
  | failed fails => exact finished_error.mpr (Expr.stop_ne_outOfFuel fails)

/-- The ending of a body is the one under any fuel that is enough for it. -/
theorem BodyEnds.settles {statements : List Stmt} {ending : Ending Unit}
    (ends : BodyEnds statements machine ending) :
    Settles (fun fuel => inScope (Stmt.execEach fuel statements)) machine ending := by
  cases ends with
  | done ends =>
    obtain ⟨_, enough, ends⟩ := ends
    exact ⟨finished_ok _ _, enough, fun fuel more => inScope_of_ok (ends fuel more)⟩
  | failed ends =>
    obtain ⟨finished, enough, ends⟩ := ends
    refine ⟨finished_error.mpr (finished_error.mp finished), enough, fun fuel more => ?_⟩
    exact inScope_of_error (ends fuel more)

/-- What a finished run of a body shows is the ending of the rule. -/
theorem bodyEnds_of_finished {fuel : Nat} {statements : List Stmt}
    (finished : Finished (inScope (Stmt.execEach fuel statements) machine)) :
    BodyEnds statements machine (inScope (Stmt.execEach fuel statements) machine) := by
  cases ending : Stmt.execEach fuel statements { machine with scopes := machine.scopes.push } with
  | ok value reached =>
    rw [inScope_of_ok ending]
    have ends := Stmt.eachEnds_of_finished (ending ▸ finished_ok value reached)
    rw [ending] at ends
    exact .done ends
  | error stop reached =>
    rw [inScope_of_error ending] at finished ⊢
    have stops := finished_error.mp finished
    have ends := Stmt.eachEnds_of_finished (ending ▸ finished_error.mpr stops)
    rw [ending] at ends
    exact .failed ends

variable {loop : Loop} {fuel left : Nat}

/-- A condition that fails ends the loop. -/
theorem rounds_of_testFailed {stop : Stop} {reached : Machine}
    (tested : test loop.keyword loop.condition machine = .error stop reached) :
    rounds fuel loop (left + 1) machine = .error stop reached :=
  Action.bind_of_error tested

/-- So does one that is false. -/
theorem rounds_of_false {reached : Machine}
    (tested : test loop.keyword loop.condition machine = .ok false reached) :
    rounds fuel loop (left + 1) machine = .ok () reached := by
  rw [rounds, Action.bind_of_ok tested]
  rfl

/-- Where the condition is true, a round and the rounds that follow it are run. -/
theorem rounds_of_true {reached : Machine}
    (tested : test loop.keyword loop.condition machine = .ok true reached) :
    rounds fuel loop (left + 1) machine =
      (do
        inScope (Stmt.execEach fuel loop.statements)
        evalClause loop.last
        rounds fuel loop left : Run Unit) reached := by
  rw [rounds, Action.bind_of_ok tested]
  rfl

/-- Rounds that end with some fuel end as the rules say. -/
theorem roundsEnd_of_finished (finished : Finished (rounds fuel loop left machine)) :
    RoundsEnd loop machine (rounds fuel loop left machine) := by
  induction left generalizing machine with
  | zero => exact absurd rfl (finished machine)
  | succ left inductionHypothesis =>
    cases tested : test loop.keyword loop.condition machine with
    | error stop reached =>
      rw [rounds_of_testFailed tested]
      exact .testFailed (test_iff.mp tested)
    | ok truth middle =>
      have test := test_iff.mp tested
      -- A false test ends the rounds; a true one leads through the body, the clause and the rest.
      cases truth with
      | false =>
        rw [rounds_of_false tested]
        exact .done test
      | true =>
        rw [rounds_of_true tested] at finished ⊢
        cases ran : inScope (Stmt.execEach fuel loop.statements) middle with
        | error stop reached =>
          rw [Action.bind_of_error ran] at finished ⊢
          exact .bodyFailed test (ran ▸ bodyEnds_of_finished (ran ▸ finished))
        | ok value after =>
          have body := bodyEnds_of_finished (ran ▸ finished_ok value after)
          rw [ran] at body
          rw [Action.bind_of_ok ran] at finished ⊢
          cases evaluated : evalClause loop.last after with
          | error stop reached =>
            rw [Action.bind_of_error evaluated]
            exact .lastFailed test body (evalClause_iff.mp evaluated)
          | ok value next =>
            rw [Action.bind_of_ok evaluated] at finished ⊢
            exact .again test body (evalClause_iff.mp evaluated) (inductionHypothesis finished)

/-- Rounds end as the rules say when they have enough fuel, both for the statements inside and for
the number of rounds. -/
theorem RoundsEnd.enough {ending : Ending Unit} (ends : RoundsEnd loop machine ending) :
    Finished ending ∧ ∃ enough, ∀ fuel left, enough ≤ fuel → enough ≤ left →
      rounds fuel loop left machine = ending := by
  -- The number of rounds and the fuel of each body are bounded by one number, which grows by round.
  induction ends with
  | testFailed test =>
    refine ⟨finished_error.mpr (finished_error.mp test.finished), 1, fun fuel left _ some => ?_⟩
    obtain ⟨left, rfl⟩ := Nat.exists_eq_add_of_le' some
    exact rounds_of_testFailed (test_iff.mpr test)
  | done test =>
    refine ⟨finished_ok _ _, 1, fun fuel left _ some => ?_⟩
    obtain ⟨left, rfl⟩ := Nat.exists_eq_add_of_le' some
    exact rounds_of_false (test_iff.mpr test)
  | bodyFailed test body =>
    obtain ⟨finished, enough, body⟩ := body.settles
    refine ⟨finished, enough + 1, fun fuel left more some => ?_⟩
    obtain ⟨left, rfl⟩ := Nat.exists_eq_add_of_le' (Nat.le_of_add_left_le some)
    rw [rounds_of_true (test_iff.mpr test)]
    exact Action.bind_of_error (body fuel (Nat.le_of_succ_le more))
  | lastFailed test body last =>
    obtain ⟨_, enough, body⟩ := body.settles
    refine ⟨last.finished, enough + 1, fun fuel left more some => ?_⟩
    obtain ⟨left, rfl⟩ := Nat.exists_eq_add_of_le' (Nat.le_of_add_left_le some)
    rw [rounds_of_true (test_iff.mpr test), Action.bind_of_ok (body fuel (Nat.le_of_succ_le more))]
    exact Action.bind_of_error (evalClause_iff.mpr last)
  -- The first body and the remaining rounds have bounds of their own; their sum is enough for both.
  | again test body last _ inductionHypothesis =>
    obtain ⟨_, bodyEnough, body⟩ := body.settles
    obtain ⟨finished, restEnough, rest⟩ := inductionHypothesis
    refine ⟨finished, bodyEnough + restEnough + 1, fun fuel left more some => ?_⟩
    obtain ⟨left, rfl⟩ := Nat.exists_eq_add_of_le' (Nat.le_of_add_left_le some)
    rw [rounds_of_true (test_iff.mpr test), Action.bind_of_ok (body fuel (by omega)),
      Action.bind_of_ok (evalClause_iff.mpr last)]
    exact rest fuel left (by omega) (by omega)

/-- With enough fuel, a loop ends exactly as the rules say. -/
theorem settles_iff {ending : Ending Unit} :
    Settles (fun fuel => loop.run fuel) machine ending ↔ loop.Ends machine ending := by
  constructor
  · rintro ⟨finished, enough, ends⟩
    have runs : loop.run enough machine = ending := ends enough (Nat.le_refl enough)
    rw [← runs] at finished ⊢
    unfold run at finished ⊢
    cases evaluated : evalClause loop.first machine with
    | error stop reached =>
      rw [Action.bind_of_error evaluated]
      exact .firstFailed (evalClause_iff.mp evaluated)
    | ok value begun =>
      rw [Action.bind_of_ok evaluated] at finished ⊢
      exact .started (evalClause_iff.mp evaluated) (roundsEnd_of_finished finished)
  · intro ends
    cases ends with
    | firstFailed first =>
      exact ⟨first.finished, 0, fun fuel _ => Action.bind_of_error (evalClause_iff.mpr first)⟩
    | started first rounds =>
      obtain ⟨finished, enough, rounds⟩ := rounds.enough
      refine ⟨finished, enough, fun fuel more => ?_⟩
      exact (Action.bind_of_ok (evalClause_iff.mpr first)).trans (rounds fuel fuel more more)

end Loop

end LineScript
