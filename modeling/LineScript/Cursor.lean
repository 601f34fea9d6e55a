/-
Module: LineScript.Cursor
Purpose: The place of a parser in its tokens, and the steps every parser is made of.
Trusted boundary: none
Main exports: Cursor, Cursor.synchronize, Progress, Parse, Parse.report, Parse.fail, Parse.recover
-/
import LineScript.Report

/-!
A parser walks over a list of tokens that ends with the token for the end of the text. The cursor is
the current token between those before it and those after it; moving never changes the whole list
and never passes the last token. A parser that meets a token it cannot use reports a syntax error
and gives up, leaving the cursor where it is; what was reported stays reported, and the first report
raises the signal that no program comes out of these tokens.
-/

namespace LineScript

/-- The place of a parser in its tokens. -/
structure Cursor where
  /-- The tokens already passed, the last one first. -/
  before : List Token
  current : Token
  after : List Token
  deriving DecidableEq, Repr, Inhabited

namespace Cursor

/-- The cursor at the first of some tokens. -/
def ofTokens : List Token → Cursor
  | [] => ⟨[], Token.endAt Position.start, []⟩
  | first :: rest => ⟨[], first, rest⟩

/-- All tokens, passed or not. -/
def tokens (cursor : Cursor) : List Token :=
  cursor.before.reverse ++ cursor.current :: cursor.after

/-- How many tokens have been passed. -/
def index (cursor : Cursor) : Nat :=
  cursor.before.length

/-- How many tokens are left, counting the current one. -/
def remaining (cursor : Cursor) : Nat :=
  cursor.after.length + 1

/-- Passes the current token, unless it ends the text. -/
def advance (cursor : Cursor) : Cursor :=
  if cursor.current.kind = .eof then cursor
  else
    match cursor.after with
    | [] => cursor
    | next :: rest => ⟨cursor.current :: cursor.before, next, rest⟩

/-- The token some places ahead, or the last one if there are not as many. -/
def peek (cursor : Cursor) (distance : Nat) : Token :=
  (cursor.after.take distance).getLastD cursor.current

/-- Passes tokens as long as they are of a given sort. -/
def passWhile (sort : TokenKind → Bool) (before : List Token) (current : Token) :
    List Token → Cursor
  | [] => ⟨before, current, []⟩
  | next :: rest =>
    if sort current.kind then passWhile sort (current :: before) next rest
    else ⟨before, current, next :: rest⟩

/-- Passes blank lines. -/
def skipNewlines (cursor : Cursor) : Cursor :=
  passWhile (· == .newline) cursor.before cursor.current cursor.after

/-- Passes the rest of the line and its newline. -/
def skipLine (cursor : Cursor) : Cursor :=
  let lineEnd := passWhile (fun kind => kind != .newline && kind != .eof)
    cursor.before cursor.current cursor.after
  if lineEnd.current.kind = .newline then lineEnd.advance else lineEnd

/-- A token at which parsing can resume after an error. -/
def isResumption (kind : TokenKind) : Bool :=
  kind ∈ [.whenWord, .ifWord, .forWord, .declareWord, .startWord, .printWord]

/-- Passes tokens until one is just behind a newline, can start a statement or ends the text.
The argument `previous` is the token passed last. -/
def passUntilResumption (previous : Token) (before : List Token) (current : Token) :
    List Token → Cursor
  | [] => ⟨before, current, []⟩
  | next :: rest =>
    if current.kind = .eof ∨ previous.kind = .newline ∨ isResumption current.kind = true then
      ⟨before, current, next :: rest⟩
    else passUntilResumption current (current :: before) next rest

/-- The place where parsing resumes after an error: the current token is passed in any case, then
everything up to the next line or the next token that can start a statement. -/
def synchronize (cursor : Cursor) : Cursor :=
  let moved := cursor.advance
  passUntilResumption cursor.current moved.before moved.current moved.after

end Cursor

/-- What a parser changes: its place, and the errors it has reported in order. -/
structure Progress where
  cursor : Cursor
  errors : List SyntaxError
  /-- Some error was reported, so the program is not accepted. -/
  failed : Bool
  failed_eq : failed = !errors.isEmpty
  deriving DecidableEq, Repr

namespace Progress

/-- The progress of a parser that starts on some tokens. -/
def ofTokens (tokens : List Token) : Progress :=
  ⟨Cursor.ofTokens tokens, [], false, rfl⟩

instance : Inhabited Progress := ⟨ofTokens []⟩

/-- The progress of a parser that has reported one more error. -/
def reporting (progress : Progress) (error : SyntaxError) : Progress where
  cursor := progress.cursor
  errors := progress.errors ++ [error]
  failed := true
  failed_eq := by simp

/-- A report leaves the parser where it is. -/
@[simp] theorem reporting_cursor (progress : Progress) (error : SyntaxError) :
    (progress.reporting error).cursor = progress.cursor := rfl

@[simp] theorem reporting_errors (progress : Progress) (error : SyntaxError) :
    (progress.reporting error).errors = progress.errors ++ [error] := rfl

/-- Progress is told by its place and the errors reported: the signal follows from the errors. -/
theorem ext_errors {one two : Progress} (cursor : one.cursor = two.cursor)
    (errors : one.errors = two.errors) : one = two := by
  have failed : one.failed = two.failed := by rw [one.failed_eq, two.failed_eq, errors]
  cases one
  cases two
  simp_all

end Progress

/-- A parser. It gives a result or gives up with the error it has just reported; either way it
keeps its progress. -/
abbrev Parse := EStateM SyntaxError Progress

namespace Parse

/-- The current token. -/
def current : Parse Token := fun progress =>
  .ok progress.cursor.current progress

/-- How many tokens are left, counting the current one. -/
def remaining : Parse Nat := fun progress =>
  .ok progress.cursor.remaining progress

/-- Moves the cursor. -/
def move (step : Cursor → Cursor) : Parse Unit := fun progress =>
  .ok () { progress with cursor := step progress.cursor }

/-- Passes the current token and gives it. -/
def advance : Parse Token := fun progress =>
  .ok progress.cursor.current { progress with cursor := progress.cursor.advance }

/-- Whether the current token is of one of some kinds. -/
def check (kinds : List TokenKind) : Parse Bool := fun progress =>
  .ok (kinds.contains progress.cursor.current.kind) progress

/-- Passes the current token if it is of one of some kinds. -/
def accept (kinds : List TokenKind) : Parse (Option Token) := do
  if ← check kinds then
    return some (← advance)
  else
    return none

/-- Reports an error at a token and goes on. -/
def report (token : Token) (message : String) : Parse Unit := fun progress =>
  .ok () (progress.reporting ⟨token, message⟩)

/-- Reports an error at the current token and gives up. -/
def fail (message : String) : Parse α := do
  let token ← current
  report token message
  throw ⟨token, message⟩

/-- Passes the current token if it is of the given kind, and gives up otherwise. -/
def expect (kind : TokenKind) (message : String) : Parse Token := do
  if ← check [kind] then advance else fail message

/-- Passes tokens of the given kinds one after the other. -/
def expectAll (message : String) : List TokenKind → Parse Unit
  | [] => return ()
  | kind :: rest => do
    let _ ← expect kind message
    expectAll message rest

/-- Passes the newline that ends every statement. -/
def endLine (message : String) : Parse Unit := do
  let _ ← expect .newline message

/-- Passes blank lines. -/
def skipNewlines : Parse Unit := move Cursor.skipNewlines

/-- Passes the rest of the line. -/
def skipLine : Parse Unit := move Cursor.skipLine

/-- Goes to the place where parsing resumes after an error. -/
def synchronize : Parse Unit := move Cursor.synchronize

/-- Runs a parser; if it gives up, goes to the place where parsing resumes. -/
def recover (item : Parse α) : Parse (Option α) := fun progress =>
  match item progress with
  | .ok found reached => .ok (some found) reached
  | .error _ reached => .ok none { reached with cursor := reached.cursor.synchronize }

end Parse

end LineScript
