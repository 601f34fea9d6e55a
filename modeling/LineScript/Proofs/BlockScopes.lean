/-
Module: LineScript.Proofs.BlockScopes
Purpose: A parsed program runs as if blocks had no scopes of their own.
Trusted boundary: none
Main exports: Stmt.execFlat, Session.executeFlat, Bare, Invokes.tidy, block_scopes_unobservable
-/
import LineScript.Proofs.EmptyScope
import LineScript.Proofs.Fuel
import LineScript.Proofs.ScopeSignature
import LineScript.Proofs.StoreTyping

/-!
A block opens a scope, and a parsed program never declares anything in it. So the scope stays empty
as long as it is there, every name means a variable of the outermost scope, and nothing changes if
the statements of a block are run where the block stands. `Stmt.execFlat` runs them so. The two
executions are the same function of the machine, with any fuel, which is more than that they end
alike. That opened scopes are empty is shown along the calls of a run: declarations are called from
outside all blocks only, and what is called elsewhere keeps the signatures of all scopes.
-/

namespace LineScript

open Run

/-! ### Execution without scopes of blocks -/

namespace Stmt

mutual

/-- Runs a statement without opening scopes: the statements of a block are run where it stands. -/
def execFlat (fuel : Nat) : Stmt → Run Unit
  | .declare type names => Run.declareEach type names
  | .expression expr => do
    let _ ← expr.eval
  | .print expr => Run.print expr
  | .scan first others => Run.scan first others
  | .branch keyword condition thenBranch elseBranch => do
    if ← condition.evalCondition keyword then
      thenBranch.execFlat fuel
    else
      execElseFlat fuel elseBranch
  | .loop keyword condition body =>
    Run.whileLoop (condition.evalCondition keyword) (body.execFlat fuel) fuel
  | .block statements => execEachFlat fuel statements

/-- Runs the other branch of a conditional, if there is one, without opening scopes. -/
def execElseFlat (fuel : Nat) : Option Stmt → Run Unit
  | none => return ()
  | some statement => statement.execFlat fuel

/-- Runs statements one after the other without opening scopes. -/
def execEachFlat (fuel : Nat) : List Stmt → Run Unit
  | [] => return ()
  | statement :: rest => do
    statement.execFlat fuel
    execEachFlat fuel rest

end

/-- How statements end that are run one after the other without opening scopes. -/
def EachEndsFlat (statements : List Stmt) : Machine → Ending Unit → Prop :=
  Settles fun fuel => execEachFlat fuel statements

mutual

/-- A block without declarations may do without its scope, for the scope stays empty and is closed
again. -/
theorem exec_eq_execFlat (fuel : Nat) :
    ∀ statement : Stmt, statement.Executable → statement.exec fuel = statement.execFlat fuel
  | .declare _ _, impossible => impossible.elim
  | .expression _, _ => by rw [exec, execFlat]
  | .print _, _ => by rw [exec, execFlat]
  | .scan _ _, _ => by rw [exec, execFlat]
  | .branch _ _ thenBranch elseBranch, parts => by
    rw [exec, execFlat, exec_eq_execFlat fuel thenBranch parts.1,
      execElse_eq_execElseFlat fuel elseBranch parts.2]
  | .loop _ _ body, inside => by rw [exec, execFlat, exec_eq_execFlat fuel body inside]
  | .block statements, inside => by
    have unpadded : Simulated False (Machine.Pads 0) (execEach fuel statements)
        (execEach fuel statements) :=
      Machine.pads_simulation.eachExecutable (.inl rfl) 0 inside
    rw [exec, execFlat, inScope_eq_self unpadded, execEach_eq_execEachFlat fuel statements inside]

theorem execElse_eq_execElseFlat (fuel : Nat) :
    ∀ statement : Option Stmt, ElseExecutable statement →
      execElse fuel statement = execElseFlat fuel statement
  | none, _ => by rw [execElse, execElseFlat]
  | some statement, inside => by
    rw [execElse, execElseFlat, exec_eq_execFlat fuel statement inside]

theorem execEach_eq_execEachFlat (fuel : Nat) :
    ∀ statements : List Stmt, EachExecutable statements →
      execEach fuel statements = execEachFlat fuel statements
  | [], _ => by rw [execEach, execEachFlat]
  | statement :: rest, inside => by
    rw [execEach, execEachFlat, exec_eq_execFlat fuel statement inside.1,
      execEach_eq_execEachFlat fuel rest inside.2]

end

end Stmt

/-- Declarations stand outside all blocks, where both executions run them alike. -/
theorem Program.Ordered.execEach_eq_execEachFlat {program : List Stmt} (ordered : Ordered program)
    (fuel : Nat) : Stmt.execEach fuel program = Stmt.execEachFlat fuel program := by
  induction ordered with
  | statements executable => exact Stmt.execEach_eq_execEachFlat fuel _ executable
  | declaration _ inductionHypothesis =>
    rw [Stmt.execEach, Stmt.execEachFlat, inductionHypothesis, Stmt.exec, Stmt.execFlat]

namespace Session

/-- What becomes of a session in which the execution of a program ends. -/
def conclude (session : Session) : Ending Unit → Outcome × Session
  | .ok _ machine => (.executed, { session with machine })
  | .error (.error error) machine => (.executed, ⟨machine, session.log.addRuntime error⟩)
  | .error (.breakdown cause) machine => (.broken cause, { session with machine })
  | .error .outOfFuel machine => (.outOfFuel, { session with machine })

theorem execute_eq_conclude (fuel : Nat) (program : List Stmt) (session : Session) :
    session.execute fuel program =
      session.conclude (Stmt.execEach fuel program session.machine) := rfl

/-- Executes a program without opening scopes. -/
def executeFlat (fuel : Nat) (program : List Stmt) (session : Session) : Outcome × Session :=
  session.conclude (Stmt.execEachFlat fuel program session.machine)

end Session

/-! ### Opened scopes stay empty -/

namespace Scopes

variable {scopes other : Scopes}

/-- No scope but the outermost one has variables. -/
def Bare (scopes : Scopes) : Prop :=
  ∀ scope ∈ scopes.toList.dropLast, scope = Scope.empty

/-- Whether opened scopes are empty can be told from the signatures. -/
theorem bare_iff_signatures :
    scopes.Bare ↔ ∀ signature ∈ scopes.signatures.dropLast, signature = [] := by
  simp [Bare, signatures, ← List.map_dropLast, Scope.signature_eq_nil]

/-- What keeps the signatures keeps opened scopes empty. -/
theorem Bare.of_signatures (bare : scopes.Bare) (same : other.signatures = scopes.signatures) :
    other.Bare := by
  rw [bare_iff_signatures] at bare ⊢
  rwa [same]

/-- A scope is opened empty. -/
theorem Bare.push (bare : scopes.Bare) : scopes.push.Bare := by
  have inside : scopes.push.toList.dropLast = Scope.empty :: scopes.toList.dropLast :=
    List.dropLast_cons_of_ne_nil (List.cons_ne_nil _ _)
  unfold Bare
  rw [inside]
  exact List.forall_mem_cons.mpr ⟨rfl, bare⟩

/-- Where no scope is open, there is nothing to show. -/
theorem bare_of_isRoot (root : scopes.isRoot) : scopes.Bare := by
  have alone : scopes.enclosing = [] := by simpa [isRoot] using root
  simp [Bare, toList, alone]

end Scopes

/-- Nothing is declared in the task. -/
def Task.Executable : Task → Prop
  | .eval _ => True
  | .exec statement => statement.Executable
  | .execEach statements => Stmt.EachExecutable statements
  | .declareEach _ _ => False
  | .assignEach _ => True
  | .rounds _ _ body _ => body.Executable

/-- The task belongs to the part of a program that stands outside all blocks. -/
inductive Task.Outside : Task → Prop where
  | declaration (type : VarType) (names : List Declarator) : Outside (.exec (.declare type names))
  | names (type : VarType) (names : List Declarator) : Outside (.declareEach type names)
  | statements {statements : List Stmt} (ordered : Program.Ordered statements) :
      Outside (.execEach statements)

/-- Outside all blocks, no scope is left open. -/
theorem Task.Outside.keeps_atRoot {task : Task} (stands : task.Outside) (fuel : Nat) :
    Keeps Machine.AtRoot (task.run fuel) := by
  cases stands with
  | declaration type names =>
    rw [Task.run, Stmt.exec]
    exact keeps_atRoot_declareEach type names
  | names type names => exact keeps_atRoot_declareEach type names
  | statements ordered => exact ordered.keeps_atRoot fuel

/-- Inside them, signatures are kept. -/
theorem Task.Executable.keepsSignatures {task : Task} (executable : task.Executable)
    (fuel : Nat) : KeepsSignatures (task.run fuel) := by
  refine keepsSignatures_of_framed fun frame simulation => ?_
  cases task with
  | eval expr => exact (simulation.eval 0 expr).bind fun _ => Simulated.pure ()
  | exec statement => exact simulation.executable (.inl rfl) 0 statement executable
  | execEach statements => exact simulation.eachExecutable (.inl rfl) 0 executable
  | declareEach type names => exact executable.elim
  | assignEach pairs => exact simulation.assignEach 0 pairs
  | rounds keyword condition body left =>
    exact Simulated.whileLoop (simulation.evalCondition 0 keyword condition)
      (simulation.executable (.inl rfl) 0 body executable) (.inl rfl)

namespace Call

variable {fuel : Nat} {call inner : Call}

/-- What a call without declarations invokes has none either. -/
theorem Invokes.executable (invokes : Invokes fuel call inner)
    (executable : call.task.Executable) : inner.task.Executable := by
  cases invokes with
  | group | assigned | operand | leftOperand | rightOperand | leftSide | rightSide | expression
  | printed | scanned | otherStores | condition | test => trivial
  | declaration | initializer | otherNames => exact executable.elim
  | thenBranch => exact executable.1
  | elseBranch => exact executable.2
  | loop | body | otherRounds | block => exact executable
  | first => exact executable.1
  | others => exact executable.2

/-- A call in which nothing is declared makes calls from scopes with the signatures of its own, or
from those with an empty scope inside. -/
theorem Invokes.signatures (invokes : Invokes fuel call inner) (executable : call.task.Executable) :
    inner.machine.scopes.signatures = call.machine.scopes.signatures ∨
      inner.machine.scopes = call.machine.scopes.push := by
  cases invokes with
  | group | assigned | operand | leftOperand | leftSide | expression | printed | declaration
  | initializer | condition | loop | test | first => exact .inl rfl
  | rightOperand evaluated => exact .inl ((keepsSignatures_eval _).of_ok evaluated)
  | rightSide evaluated => exact .inl ((keepsSignatures_eval _).of_ok evaluated)
  | otherNames => exact executable.elim
  | scanned read => exact .inl ((keepsSignatures_readValues _).of_ok read)
  | otherStores stored => exact .inl ((keepsSignatures_assign _ _).of_ok stored)
  | thenBranch tested => exact .inl ((keepsSignatures_evalCondition _ _).of_ok tested)
  | elseBranch tested => exact .inl ((keepsSignatures_evalCondition _ _).of_ok tested)
  | body tested => exact .inl ((keepsSignatures_evalCondition _ _).of_ok tested)
  | otherRounds tested ran =>
    have test := (keepsSignatures_evalCondition _ _).of_ok tested
    have body := (keepsSignatures_exec fuel executable).of_ok ran
    exact .inl (body.trans test)
  | block => exact .inr rfl
  | others ran => exact .inl ((keepsSignatures_exec fuel executable.1).of_ok ran)

/-- How a call of a parsed program stands: nothing is declared in it and opened scopes are empty, or
no scope is open. -/
inductive Tidy (call : Call) : Prop where
  | inside (executable : call.task.Executable) (bare : call.machine.scopes.Bare)
  | outside (stands : call.task.Outside) (root : call.machine.AtRoot)

/-- From outside all blocks a call invokes another such call, or one in which nothing is
declared. -/
theorem Invokes.tidy_of_outside (invokes : Invokes fuel call inner) (stands : call.task.Outside)
    (root : call.machine.AtRoot) : inner.Tidy := by
  cases invokes with
  | declaration => exact .outside (.names _ _) root
  | initializer => exact .inside trivial (Scopes.bare_of_isRoot root)
  | otherNames evaluated declared =>
    have middle := (keepsSignatures_initializer _).keeps_atRoot.of_ok evaluated root
    exact .outside (.names _ _) ((keeps_atRoot_declare _ _ _).of_ok declared middle)
  | first =>
    cases stands with
    | statements ordered =>
      cases ordered with
      | statements executable => exact .inside executable.1 (Scopes.bare_of_isRoot root)
      | declaration => exact .outside (.declaration _ _) root
  | others ran =>
    cases stands with
    | statements ordered =>
      cases ordered with
      | statements executable =>
        have still := (keepsSignatures_exec fuel executable.1).keeps_atRoot.of_ok ran root
        exact .inside executable.2 (Scopes.bare_of_isRoot still)
      | declaration ordered =>
        have still := Task.Outside.keeps_atRoot (.declaration _ _) fuel |>.of_ok ran root
        exact .outside (.statements ordered) still
  | _ => cases stands

/-- One step: what a call of a parsed program calls stands as the call itself does. -/
theorem Invokes.tidy (invokes : Invokes fuel call inner) (tidy : call.Tidy) : inner.Tidy := by
  cases tidy with
  | outside stands root => exact invokes.tidy_of_outside stands root
  | inside executable bare =>
    refine .inside (invokes.executable executable) ?_
    rcases invokes.signatures executable with same | opened
    · exact bare.of_signatures same
    · rw [opened]
      exact bare.push

/-- What is reached from a tidy call is tidy. -/
theorem Reaches.tidy (reaches : Reaches fuel call inner) (tidy : call.Tidy) : inner.Tidy := by
  induction reaches with
  | refl => exact tidy
  | tail _ last inductionHypothesis => exact last.tidy inductionHypothesis

/-- A call starts with all opened scopes empty. -/
theorem Tidy.bare_start (tidy : call.Tidy) : call.machine.scopes.Bare := by
  cases tidy with
  | inside _ bare => exact bare
  | outside _ root => exact Scopes.bare_of_isRoot root

/-- It ends with all opened scopes empty, whether it succeeds or not. -/
theorem Tidy.bare_end (tidy : call.Tidy) (fuel : Nat) :
    (final (call.result fuel)).scopes.Bare := by
  cases tidy with
  | inside executable bare => exact bare.of_signatures (executable.keepsSignatures fuel _)
  | outside stands root => exact Scopes.bare_of_isRoot (stands.keeps_atRoot fuel _ root)

/-- A run that starts tidily never sees a variable outside the outermost scope. -/
theorem Tidy.visits (tidy : call.Tidy) {machine : Machine} (visits : Visits fuel call machine) :
    machine.scopes.Bare := by
  obtain ⟨inner, reached, starts | ends⟩ := visits
  · rw [starts]
    exact (reached.tidy tidy).bare_start
  · rw [ends]
    exact (reached.tidy tidy).bare_end fuel

end Call

namespace Session

/-- Whether blocks have scopes of their own makes no difference to a parsed program that is started
with the outermost scope only. With any fuel it leaves the same session behind, with the outermost
scope only, whose outcome, variables, unread input, output and log are the same; so it also ends in
the same way or not at all. While it runs, opened scopes are empty. -/
theorem block_scopes_unobservable (source : String) (program : List Stmt) (session : Session)
    (parsed : (Program.parse (lex source).tokens).program = some program)
    (root : session.machine.scopes.isRoot) :
    (∀ fuel, session.execute fuel program = session.executeFlat fuel program ∧
      (session.execute fuel program).2.machine.scopes.isRoot) ∧
    (∀ ending, Stmt.EachEnds program session.machine ending ↔
      Stmt.EachEndsFlat program session.machine ending) ∧
    ∀ fuel machine, Call.Visits fuel ⟨.execEach program, session.machine⟩ machine →
      machine.scopes.Bare := by
  have ordered := Program.parse_ordered parsed
  have same : ∀ fuel, Stmt.execEach fuel program = Stmt.execEachFlat fuel program :=
    ordered.execEach_eq_execEachFlat
  refine ⟨fun fuel => ⟨?_, ?_⟩, fun ending => ?_, fun fuel machine visited => ?_⟩
  · rw [execute_eq_conclude, executeFlat, same]
  · rw [machine_execute]
    exact ordered.keeps_atRoot fuel session.machine root
  · unfold Stmt.EachEnds Stmt.EachEndsFlat
    rw [funext same]
  · have tidy : Call.Tidy ⟨.execEach program, session.machine⟩ :=
      .outside (.statements ordered) root
    exact tidy.visits visited

/-- A script with blocks inside blocks that reads and assigns variables from within them. -/
def nestedBlocks : String :=
  "SCRIPT AREA\nSTART SCRIPT\nDECLARE INT n\nFOR (n=0, n<2, n=n+1)\nSTART FOR\nIF (n==seed)\n" ++
    "START IF\nSCAN: seed\nEND IF\nPRINT: seed\nEND FOR\nEND SCRIPT\n"

/-- A session with one variable and a line of input. -/
def seeded : Session :=
  ⟨⟨⟨⟨[("seed", ⟨.int, some (.int 1)⟩)]⟩, []⟩, ⟨['7', '\n'], false⟩, ""⟩, Log.empty⟩

theorem nestedBlocks_scopes_unobservable :
    ∃ program, (Program.parse (lex nestedBlocks).tokens).program = some program ∧
      seeded.machine.scopes.isRoot ∧
      (seeded.execute 3 program).2.machine.output = "17" ∧
      seeded.execute 3 program = seeded.executeFlat 3 program ∧
      ∀ machine, Call.Visits 3 ⟨.execEach program, seeded.machine⟩ machine →
        machine.scopes.Bare := by
  have runs : ∃ program, (Program.parse (lex nestedBlocks).tokens).program = some program ∧
      (seeded.execute 3 program).2.machine.output = "17" := by
    have computed : ((Program.parse (lex nestedBlocks).tokens).program.map fun program =>
        (seeded.execute 3 program).2.machine.output) = some "17" := by
      decide +kernel
    exact Option.map_eq_some_iff.mp computed
  obtain ⟨program, parsed, output⟩ := runs
  have unobservable := block_scopes_unobservable nestedBlocks program seeded parsed rfl
  exact ⟨program, parsed, rfl, output, (unobservable.1 3).1, unobservable.2.2 3⟩

end Session

end LineScript
