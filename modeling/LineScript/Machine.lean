/-
Module: LineScript.Machine
Purpose: The state of a running program, and the ways it stops.
Trusted boundary: the input is given in full before a program starts, with a sign that the user
  interrupts where it ends.
Main exports: Input, Breakdown, Stop, Machine, Run, Run.write, Run.read, Run.assign, Run.whileLoop
-/
import LineScript.Scopes
import LineScript.Text.Basic

/-!
A running program has its scopes, the input it has not read yet, and the output it has written. It
stops early at a runtime error, which is reported; at a breakdown, which is not; or because its fuel
is used up, which only says that it was not followed to its end.
-/

namespace LineScript

/-- What a program reads from. -/
structure Input where
  unread : List Char
  /-- Whether reading past the end is an interruption instead of finding the end. -/
  interrupts : Bool
  deriving DecidableEq, Repr, Inhabited

/-- A failure that is no runtime error of the language. -/
inductive Breakdown where
  /-- A tree holds an operator that does not belong there. -/
  | unknownUnary (lexeme : String)
  | unknownBinary (lexeme : String)
  /-- The remainder of an infinity was asked for. -/
  | infiniteDividend
  /-- A message would show an integer with too many digits. -/
  | unprintable
  /-- The user interrupted the program. -/
  | interrupted
  deriving DecidableEq, Repr, Inhabited

/-- What is known about a breakdown. -/
def Breakdown.message : Breakdown → String
  | .unknownUnary lexeme => "Unknown unary operator '" ++ lexeme ++ "'"
  | .unknownBinary lexeme => "Unknown binary operator '" ++ lexeme ++ "'"
  | .infiniteDividend => "Remainder of an infinite dividend"
  | .unprintable => "Integer too large to print"
  | .interrupted => "Interrupted"

/-- Why a program stopped early. -/
inductive Stop where
  | error (error : RuntimeError)
  | breakdown (cause : Breakdown)
  | outOfFuel
  deriving DecidableEq, Repr, Inhabited

/-- The state of a running program. -/
structure Machine where
  scopes : Scopes
  input : Input
  output : String
  deriving DecidableEq, Repr, Inhabited

/-- An action of a running program. Whatever stops it, the state it reached is kept. -/
abbrev Run := EStateM Stop Machine

namespace Machine

/-- A machine without variables or output. -/
def start (input : Input) : Machine :=
  ⟨Scopes.root, input, ""⟩

/-- The machine without its variables, with the same input and output. -/
def forget (machine : Machine) : Machine :=
  { machine with scopes := Scopes.root }

/-- Adds to the output. -/
def write (machine : Machine) (text : String) : Machine :=
  { machine with output := machine.output ++ text }

end Machine

namespace Run

/-- Stops at a runtime error. -/
def fail (cause : Cause) (token : Option Token) : Run α :=
  throw (.error ⟨cause, token⟩)

/-- The result of a step that may stop the program. -/
def ofExcept (result : Except Stop α) : Run α :=
  match result with
  | .ok value => pure value
  | .error stop => throw stop

/-- The result of a step that may end in a runtime error. -/
def ofResult (result : Except RuntimeError α) : Run α :=
  match result with
  | .ok value => pure value
  | .error error => throw (.error error)

/-- Writes to the output. -/
def write (text : String) : Run Unit := fun machine =>
  .ok () (machine.write text)

/-- The value of a variable. -/
def read (name : Token) : Run Value := do
  ofResult ((← get).scopes.read name)

/-- Gives a variable a value. -/
def assign (name : Token) (value : Value) : Run Unit := do
  let (_, scopes) ← ofResult ((← get).scopes.assign name (some value))
  modify fun machine => { machine with scopes := scopes }

/-- Declares a variable in the innermost scope. -/
def declare (name : Token) (type : VarType) (given : Content) : Run Unit := do
  let scopes ← ofResult ((← get).scopes.declare name type given)
  modify fun machine => { machine with scopes := scopes }

/-- Runs an action in a scope of its own, which is closed however the action ends. -/
def inScope (action : Run α) : Run α := fun machine =>
  match action { machine with scopes := machine.scopes.push } with
  | .ok value reached => .ok value { reached with scopes := reached.scopes.pop }
  | .error stop reached => .error stop { reached with scopes := reached.scopes.pop }

/-- Repeats an action as long as a test holds, at most as often as the fuel allows. -/
def whileLoop (test : Run Bool) (action : Run Unit) : Nat → Run Unit
  | 0 => throw .outOfFuel
  | fuel + 1 => do
    if ← test then
      action
      whileLoop test action fuel

/-- The next line of the input, with its newline if it has one. There must be input left. -/
def nextLine (token : Token) : Run (List Char) := fun machine =>
  if machine.input.unread = [] then
    .error (if machine.input.interrupts then .breakdown .interrupted
      else .error ⟨.inputExhausted, some token⟩) machine
  else
    let (line, rest) := Text.nextLine machine.input.unread
    .ok line { machine with input := { machine.input with unread := rest } }

end Run

end LineScript
