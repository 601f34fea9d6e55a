/-
Module: LineScript.Session
Purpose: Programs run one after the other with one log.
Trusted boundary: none
Main exports: Session, Outcome, Session.execute, Session.run
-/
import LineScript.Program
import LineScript.Stmt.Exec

/-!
A session runs source texts on one machine with one log. A text is executed only if the log then
holds no lexical or syntax error, neither from it nor from an earlier one that was not cleared away.
A runtime error ends the execution and is recorded; it does not keep later texts from running.
-/

namespace LineScript

/-- A machine with the log of its errors. -/
structure Session where
  machine : Machine
  log : Log
  deriving DecidableEq, Repr, Inhabited

/-- What became of a source text. -/
inductive Outcome where
  /-- It was not executed because of static errors. -/
  | skipped
  /-- It was executed to its end or to a runtime error. -/
  | executed
  /-- Its execution broke down. -/
  | broken (cause : Breakdown)
  | outOfFuel
  deriving DecidableEq, Repr, Inhabited

/-- The tokens and the tree of a program, as they are shown before it runs. -/
def dumpProgram (tokens : List Token) (program : List Stmt) : String :=
  "\nTokens:\n\n[" ++ String.intercalate ", " (tokens.map Token.dump) ++ "]\n\nAST:\n\n" ++
    Stmt.renderProgram Stmt.defaultIndent program ++ "\n \n"

namespace Session

/-- A session that has not run anything. -/
def start (input : Input) : Session :=
  ⟨Machine.start input, Log.empty⟩

/-- The session without its reports. -/
def clearLog (session : Session) : Session :=
  { session with log := session.log.clear }

/-- The session without its variables. -/
def forget (session : Session) : Session :=
  { session with machine := session.machine.forget }

/-- Adds to the output. -/
def write (session : Session) (text : String) : Session :=
  { session with machine := session.machine.write text }

/-- Executes a program. -/
def execute (fuel : Nat) (program : List Stmt) (session : Session) : Outcome × Session :=
  match Stmt.execEach fuel program session.machine with
  | .ok _ machine => (.executed, { session with machine })
  | .error (.error error) machine => (.executed, ⟨machine, session.log.addRuntime error⟩)
  | .error (.breakdown cause) machine => (.broken cause, { session with machine })
  | .error .outOfFuel machine => (.outOfFuel, { session with machine })

/-- Runs a source text. With `dump`, the program is shown before it is executed. -/
def run (fuel : Nat) (dump : Bool) (source : String) (session : Session) : Outcome × Session :=
  let lexed := lex source
  let parsed := Program.parse lexed.tokens
  let log := parsed.errors.foldl Log.addSyntactic (lexed.errors.foldl Log.addLexical session.log)
  let checked := { session with log }
  match log.hasStaticError, parsed.program with
  | false, some program =>
    if dump then checked.write (dumpProgram lexed.tokens program) |>.execute fuel program
    else checked.execute fuel program
  | _, _ => (.skipped, checked)

end Session

end LineScript
