/-
Module: LineScript.Proofs.RunInvariant
Purpose: What every step of a running program preserves, every run preserves.
Trusted boundary: none
Main exports: Run.final, Keeps, Machine.Invariant, Machine.Invariant.exec
-/
import LineScript.Proofs.RunSimulation

/-!
A run changes its machine in six ways only: a variable is assigned or declared, a scope is opened or
closed, text is written, and a line is read. A condition on machines that all six preserve holds at
the end of every run that starts with it, whether the run gives a result or stops early: the run is
simulated by itself on machines with the condition.
-/

namespace LineScript

/-- The machine in which a run ends, however it ends. -/
def Run.final {α : Type} : Ending α → Machine
  | .ok _ machine => machine
  | .error _ machine => machine

namespace Run

variable {α : Type} {holds : Machine → Prop}

@[simp] theorem final_ok (value : α) (machine : Machine) :
    final (.ok value machine : Ending α) = machine := rfl

@[simp] theorem final_error (stop : Stop) (machine : Machine) :
    final (.error stop machine : Ending α) = machine := rfl

/-- Started in a machine with the condition, the action ends in one with the condition. -/
def Keeps (holds : Machine → Prop) (action : Run α) : Prop :=
  ∀ machine, holds machine → holds (final (action machine))

/-- An action that keeps a property of machines leaves it behind when it succeeds. -/
theorem Keeps.of_ok {action : Run α} {machine reached : Machine} {value : α}
    (keeps : Keeps holds action) (ending : action machine = .ok value reached)
    (start : holds machine) : holds reached := by
  have kept := keeps machine start
  rwa [ending] at kept

/-- Two machines that are the same one, with the condition. -/
def SameWith (holds : Machine → Prop) (_depth : Nat) (machine mirror : Machine) : Prop :=
  machine = mirror ∧ holds machine

/-- An action keeps a condition exactly when it is simulated by itself on machines with it. -/
theorem simulated_iff_keeps {action : Run α} (depth : Nat) :
    Simulated False (SameWith holds depth) action action ↔ Keeps holds action := by
  constructor
  · intro simulated machine start
    have ending := simulated machine machine ⟨rfl, start⟩
    generalize action machine = result at ending ⊢
    cases ending with
    | ok value ends => exact ends.2
    | error stop ends => exact ends.2
    | unfinished impossible => exact impossible.elim
  · rintro keeps machine _ ⟨rfl, start⟩
    have kept := keeps machine start
    cases ending : action machine with
    | ok value reached =>
      rw [ending] at kept
      exact .ok value ⟨rfl, kept⟩
    | error stop reached =>
      rw [ending] at kept
      exact .error stop ⟨rfl, kept⟩

/-- Two actions that keep a property keep it one after the other. -/
theorem Keeps.bind {β : Type} {action : Run α} {next : α → Run β} (first : Keeps holds action)
    (second : ∀ value, Keeps holds (next value)) : Keeps holds (action >>= next) :=
  (simulated_iff_keeps 0).1 (((simulated_iff_keeps 0).2 first).bind fun value =>
    (simulated_iff_keeps 0).2 (second value))

theorem Keeps.read (name : Token) : Keeps holds (read name) := by
  intro machine start
  rw [read_apply]
  split
  · exact start
  · exact start

end Run

/-- A condition that every change of a machine preserves. -/
structure Machine.Invariant (holds : Machine → Prop) : Prop where
  assign : ∀ name value, Run.Keeps holds (Run.assign name value)
  declare : ∀ name type given, Run.Keeps holds (Run.declare name type given)
  write : ∀ machine text, holds machine → holds (machine.write text)
  nextLine : ∀ token, Run.Keeps holds (Run.nextLine token)
  push : ∀ machine, holds machine → holds { machine with scopes := machine.scopes.push }
  pop : ∀ machine, holds machine → holds { machine with scopes := machine.scopes.pop }

namespace Machine.Invariant

open Run

variable {holds : Machine → Prop}

/-- A run that keeps an invariant is a simulation of the run by itself. -/
theorem simulation (invariant : Invariant holds) : Simulation (SameWith holds) where
  read _ name := (simulated_iff_keeps _).2 (Keeps.read name)
  assign _ name value := (simulated_iff_keeps _).2 (invariant.assign name value)
  declare _ name type given := (simulated_iff_keeps _).2 (invariant.declare name type given)
  write _ text := (simulated_iff_keeps _).2 fun machine start => invariant.write machine text start
  nextLine _ token := (simulated_iff_keeps _).2 (invariant.nextLine token)
  push := by
    rintro _ machine _ ⟨rfl, start⟩
    exact ⟨rfl, invariant.push machine start⟩
  pop := by
    rintro _ machine _ ⟨rfl, start⟩
    exact ⟨rfl, invariant.pop machine start⟩

/-- Evaluation keeps every invariant of assignments. -/
theorem eval (invariant : Invariant holds) (expr : Expr) : Keeps holds expr.eval :=
  (simulated_iff_keeps 0).1 (invariant.simulation.eval 0 expr)

theorem evalCondition (invariant : Invariant holds) (keyword : Option Token) (expr : Expr) :
    Keeps holds (expr.evalCondition keyword) :=
  (simulated_iff_keeps 0).1 (invariant.simulation.evalCondition 0 keyword expr)

/-- Reading a line of input keeps every invariant of taking lines. -/
theorem readValues (invariant : Invariant holds) (token : Token) :
    Keeps holds (readValues token) :=
  (simulated_iff_keeps 0).1 (invariant.simulation.readValues 0 token)

theorem initializer (invariant : Invariant holds) (initializer : Option Expr) :
    Keeps holds (initializer.mapM Expr.eval) :=
  (simulated_iff_keeps 0).1 (invariant.simulation.initializer 0 initializer)

/-- Running a statement preserves what all changes preserve. -/
theorem exec (invariant : Invariant holds) (fuel : Nat) (statement : Stmt) :
    Keeps holds (statement.exec fuel) :=
  (simulated_iff_keeps 1).1 (invariant.simulation.exec (.inl rfl) 0 statement)

/-- So do all statements, run one after the other. -/
theorem execEach (invariant : Invariant holds) (fuel : Nat) (statements : List Stmt) :
    Keeps holds (Stmt.execEach fuel statements) :=
  (simulated_iff_keeps 1).1 (invariant.simulation.execEach (.inl rfl) 0 statements)

end Machine.Invariant

end LineScript
