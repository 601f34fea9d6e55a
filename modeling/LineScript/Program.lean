/-
Module: LineScript.Program
Purpose: The parser of whole programs.
Trusted boundary: a host parses nested forms by calls inside calls and bounds their depth. This
  bound is left out: forms of any depth are parsed, and the error that a host raises at its bound
  does not occur.
Main exports: header, declarations, footer, statements, Parsed, parse, parse_eq
-/
import LineScript.Stmt.Parse

/-!
A program is a header of two lines, its declarations, its statements, and a footer behind which only
blank lines may follow. A broken header or footer ends parsing; a broken declaration or statement is
passed over. A program is accepted only if no error was reported at all.
-/

namespace LineScript.Program

open Parse

/-- The two lines that open a program. -/
def header : Parse Unit := do
  skipNewlines
  expectAll "Expected 'SCRIPT AREA' at the start of file" [.scriptWord, .areaWord, .newline]
  skipNewlines
  expectAll "Expected 'START SCRIPT' after 'SCRIPT AREA'" [.startWord, .scriptWord, .newline]

/-- The declarations at the cursor, at most as many as the bound says. -/
def declarationsFrom : Nat → Parse (List Stmt)
  | 0 => return []
  | bound + 1 => do
    if ← check [.declareWord] then
      let found ← recover Stmt.declaration
      skipNewlines
      let rest ← declarationsFrom bound
      return found.toList ++ rest
    else
      return []

/-- The declarations in front of all other statements. Broken ones are left out. -/
def declarations : Parse (List Stmt) := do
  skipNewlines
  declarationsFrom (← remaining)

/-- The line that closes a program. -/
def footer : Parse Unit := do
  expectAll "Expected 'END SCRIPT' to finish program" [.endWord, .scriptWord]
  skipNewlines
  if ← check [.eof] then
    return ()
  else
    fail "Unexpected content after 'END SCRIPT'"

/-- The statements of a whole program, declarations first. -/
def statements : Parse (List Stmt) := do
  header
  let first ← declarations
  let rest ← Stmt.parseRun .topLevel
  footer
  return first ++ rest

/-- What parsing a program gives. -/
structure Parsed where
  /-- The statements of an accepted program. -/
  program : Option (List Stmt)
  errors : List SyntaxError
  deriving Repr, Inhabited

/-- Parses the tokens of a program. Forms may be nested to any depth: no bound on the depth of calls
is modelled. -/
def parse (tokens : List Token) : Parsed :=
  match statements (Progress.ofTokens tokens) with
  | .ok found progress => ⟨if progress.failed then none else some found, progress.errors⟩
  | .error _ progress => ⟨none, progress.errors⟩

/-- A program that was parsed to its end is accepted if no error was reported on the way. -/
theorem parse_eq (tokens : List Token) :
    parse tokens =
      match statements (Progress.ofTokens tokens) with
      | .ok found progress =>
        ⟨if progress.errors.isEmpty then some found else none, progress.errors⟩
      | .error _ progress => ⟨none, progress.errors⟩ := by
  unfold parse
  split
  · rename_i found progress _
    rw [progress.failed_eq]
    cases progress.errors.isEmpty <;> rfl
  · rfl

end LineScript.Program
