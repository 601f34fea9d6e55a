/-
Module: LineScript.Console
Purpose: The command line: running a script file, the interactive session, and the usage text.
Trusted boundary: files and the input stand as what reading them gives: bytes for each path,
  characters of the input, and a sign that the user interrupts at its end.
Main exports: Ending, Result, runScript, runFile, interact, run
-/
import LineScript.Session
import LineScript.Text.Basic

/-!
With one argument the console runs the script file it names; without arguments it starts an
interactive session; with anything else it shows how it is used. The status tells how a script
ended: without errors, with a static error, or with a runtime error.

An interactive session collects lines until one that closes a program, and runs the program with a
cleared log and without the variables of the programs before it. The programs read their input from
the lines that follow, so a line is either part of a program or input for one.
-/

namespace LineScript.Console

/-- How the console ended. -/
inductive Ending where
  | status (code : Nat)
  /-- The user interrupted an interactive session. -/
  | interrupted
  /-- There is no script file of the given name. -/
  | missingScript
  /-- The script file is no text. -/
  | undecodableScript
  | broken (cause : Breakdown)
  | outOfFuel
  deriving DecidableEq, Repr, Inhabited

/-- What the console did. -/
structure Result where
  ending : Ending
  output : String
  errors : String
  deriving DecidableEq, Repr, Inhabited

/-- The exit status of an ending that has one. An interrupted session has ended well. -/
def Ending.exitStatus? : Ending → Option Nat
  | .status code => some code
  | .interrupted => some 0
  | _ => none

/-- Status of a script with a lexical or syntax error. -/
def staticErrorStatus : Nat := 65

/-- Status of a script that stopped at a runtime error. -/
def runtimeErrorStatus : Nat := 70

/-- How the console is used. -/
def usage : String :=
  "\n" ++
  "LEXOR Language Interpreter\n" ++
  "\n" ++
  "Usage:\n" ++
  "    lexor <script.lexor>\n" ++
  "\n" ++
  "Arguments:\n" ++
  "    <script.lexor>\n" ++
  "        Path to a LEXOR source file to execute. The program must be\n" ++
  "        wrapped in 'SCRIPT AREA' / 'START SCRIPT' ... 'END SCRIPT'.\n" ++
  "\n" ++
  "Example:\n" ++
  "    lexor hello.lexor\n" ++
  "\n" ++
  "Or run with no arguments to enter interactive mode (REPL).\n" ++
  "\n" ++
  "Options:\n" ++
  "    -h, --help\n" ++
  "        Show this help message and exit.\n" ++
  "\n" ++
  "Environment:\n" ++
  "    LEXORDEBUG\n" ++
  "        When set, print the tokens and AST before running.\n"

/-- The result of a session that has ended. -/
def Result.ofSession (ending : Ending) (session : Session) : Result :=
  ⟨ending, session.machine.output, session.log.echoed⟩

/-- The status of a script, read off its log. -/
def statusOf (log : Log) : Nat :=
  if log.hasStaticError then staticErrorStatus
  else if log.hasRuntimeError then runtimeErrorStatus
  else 0

/-- Runs the text of a script. -/
def runScript (fuel : Nat) (dump : Bool) (input : Input) (source : String) : Result :=
  let (outcome, session) := (Session.start input).run fuel dump source
  let ending :=
    match outcome with
    | .skipped | .executed => .status (statusOf session.log)
    | .broken cause => .broken cause
    | .outOfFuel => .outOfFuel
  Result.ofSession ending session

/-- The text of a script file. -/
def decodeScript (bytes : ByteArray) : Option String :=
  (String.fromUTF8? bytes).map fun text => String.ofList (Text.unifyNewlines text.toList)

/-- Runs a script file, given its bytes if there is such a file. -/
def runFile (fuel : Nat) (dump : Bool) (input : Input) (file : Option ByteArray) : Result :=
  match file with
  | none => ⟨.missingScript, "", ""⟩
  | some bytes =>
    match decodeScript bytes with
    | none => ⟨.undecodableScript, "", ""⟩
    | some source => runScript fuel dump input source

/-- The lines that greet the user of an interactive session. -/
def greeting : String :=
  "LEXOR Language Interpreter - REPL\nType `exit` or `quit` to leave.\n"

/-- What the user is asked with: a first line of a program, or a further one. -/
def prompt (collected : List String) : String :=
  if collected.isEmpty then ">>> " else "... "

/-- A line that leaves the interactive session, if no program is begun. -/
def isLeave (line : List Char) : Bool :=
  Text.trim line == "exit".toList || Text.trim line == "quit".toList

/-- A line that closes a program. -/
def isClosing (line : List Char) : Bool :=
  Text.trim line == "END SCRIPT".toList

/-- The source text of some lines. -/
def joinLines (lines : List String) : String :=
  String.join (lines.map (· ++ "\n"))

/-- Told to a user who interrupts the session. -/
def interruption : String := "\nInterrupted.\n"

/-- The next line of the session's input without its newline, and the session behind it. -/
def readLine? (session : Session) : Option (List Char × Session) :=
  match session.machine.input.unread with
  | [] => none
  | unread =>
    let (line, rest) := Text.nextLine unread
    let machine := session.machine
    some (line.takeWhile (· != '\n'),
      { session with machine := { machine with input := { machine.input with unread := rest } } })

/-- The rounds of an interactive session, at most as many as the bound says. Each reads one line.
The lines collected so far are those of a program that is not closed yet. -/
def interactFrom (fuel : Nat) (dump : Bool) : Nat → List String → Session → Ending × Session
  | 0, _, session => (.outOfFuel, session)
  | bound + 1, collected, session =>
    let asked := session.write (prompt collected)
    match readLine? asked with
    | none =>
      if asked.machine.input.interrupts then (.interrupted, asked.write interruption)
      else (.status 0, asked.write "\n")
    | some (line, afterLine) =>
      if collected.isEmpty && isLeave line then (.status 0, afterLine)
      else
        let lines := collected ++ [String.ofList line]
        if isClosing line then
          let (outcome, ran) := afterLine.clearLog.forget.run fuel dump (joinLines lines)
          match outcome with
          | .skipped | .executed => interactFrom fuel dump bound [] (ran.write "\n")
          | .broken .interrupted => (.interrupted, ran.write interruption)
          | .broken cause => (.broken cause, ran)
          | .outOfFuel => (.outOfFuel, ran)
        else interactFrom fuel dump bound lines afterLine

/-- An interactive session. Each round reads at least one character or is the last, so the length
of the input bounds their number. -/
def interact (fuel : Nat) (dump : Bool) (input : Input) : Result :=
  let greeted := (Session.start input).write greeting
  let (ending, session) := interactFrom fuel dump (input.unread.length + 1) [] greeted
  Result.ofSession ending session

/-- Runs the console with its arguments. `file` gives the bytes of the files there are. -/
def run (fuel : Nat) (dump : Bool) (input : Input) (file : String → Option ByteArray) :
    List String → Result
  | [] => interact fuel dump input
  | [argument] =>
    if argument = "-h" ∨ argument = "--help" then ⟨.status 0, usage, ""⟩
    else runFile fuel dump input (file argument)
  | _ => ⟨.status 1, usage, ""⟩

end LineScript.Console
