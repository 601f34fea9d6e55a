/-
Module: LineScript.Report
Purpose: The log that collects every error of a program, and the lines it echoes.
Trusted boundary: none
Main exports: ReportKind, Report, SyntaxError, Log, Log.addLexical, Log.addSyntactic, Log.addRuntime
-/
import LineScript.Lexed
import LineScript.RuntimeError

/-!
All errors go to one log. It keeps a report of each in order of arrival and echoes it as one line of
text. Two signals say whether a program must not be executed and whether it failed while running.
Recording an error raises one of them, and clearing the log lowers both; a log carries the proof
that they are in step with its reports. Clearing forgets the reports, not what has been echoed.
-/

namespace LineScript

/-- The stage that found an error. -/
inductive ReportKind where
  | lexical
  | grammatical
  | runtime
  deriving DecidableEq, Repr, Inhabited

namespace ReportKind

/-- The word that names a kind. -/
def label : ReportKind → String
  | .lexical => "lexical"
  | .grammatical => "syntax"
  | .runtime => "runtime"

/-- All kinds. -/
def all : List ReportKind := [.lexical, .grammatical, .runtime]

/-- The kind named by a word. -/
def ofLabel? (word : String) : Option ReportKind :=
  all.find? fun kind => kind.label == word

end ReportKind

/-- One reported error. -/
structure Report where
  kind : ReportKind
  message : String
  position : Position
  deriving DecidableEq, Repr, Inhabited

/-- A violation of the grammar at a token. -/
structure SyntaxError where
  token : Token
  message : String
  deriving DecidableEq, Repr, Inhabited

/-- A position in front of an echoed line. -/
def Position.echo (position : Position) : String :=
  "[line " ++ Number.natText position.line ++ ":" ++ Number.natText position.column ++ "] "

/-- What a report of a lexical error says. -/
def LexicalError.text (error : LexicalError) : String :=
  error.message ++ ": " ++ quoted error.shown

/-- The line that is echoed for a lexical error. -/
def LexicalError.echo (error : LexicalError) : String :=
  error.position.echo ++ "Error: " ++ error.text ++ "\n"

/-- The report of a lexical error. -/
def LexicalError.report (error : LexicalError) : Report :=
  ⟨.lexical, error.text, error.position⟩

/-- How an echoed line names the token of a syntax error. -/
def SyntaxError.place (error : SyntaxError) : String :=
  match error.token.kind with
  | .eof => " at end"
  | .newline => " at end of line"
  | _ => " at '" ++ error.token.lexeme ++ "'"

/-- The line that is echoed for a syntax error. -/
def SyntaxError.echo (error : SyntaxError) : String :=
  error.token.position.echo ++ "Error" ++ error.place ++ ": " ++ error.message ++ "\n"

/-- The report of a syntax error. -/
def SyntaxError.report (error : SyntaxError) : Report :=
  ⟨.grammatical, error.message, error.token.position⟩

/-- The line that is echoed for a runtime error. -/
def RuntimeError.echo (error : RuntimeError) : String :=
  "[line " ++ Number.natText error.position.line ++ "] " ++ error.cause.className ++ ": " ++
    error.message ++ "\n"

/-- The report of a runtime error. -/
def RuntimeError.report (error : RuntimeError) : Report :=
  ⟨.runtime, error.message, error.position⟩

/-- A report of an error that was found without running the program. -/
def Report.isStatic (report : Report) : Bool :=
  report.kind != .runtime

/-- A report of an error that stopped the program. -/
def Report.isRuntime (report : Report) : Bool :=
  report.kind == .runtime

/-- The log of errors. -/
structure Log where
  reports : List Report
  /-- All that has been echoed, also before the log was cleared. -/
  echoed : String
  /-- Some lexical or syntax error was reported, so the program must not be executed. -/
  hasStaticError : Bool
  /-- Execution stopped at a runtime error. -/
  hasRuntimeError : Bool
  hasStaticError_eq : hasStaticError = reports.any Report.isStatic
  hasRuntimeError_eq : hasRuntimeError = reports.any Report.isRuntime
  deriving DecidableEq, Repr

namespace Log

/-- A log without reports. -/
def empty : Log := ⟨[], "", false, false, rfl, rfl⟩

instance : Inhabited Log := ⟨empty⟩

/-- Adds the report of a lexical or syntax error with its echoed line, and forbids execution. -/
def addStatic (log : Log) (report : Report) (static : report.isStatic) (line : String) : Log where
  reports := log.reports ++ [report]
  echoed := log.echoed ++ line
  hasStaticError := true
  hasRuntimeError := log.hasRuntimeError
  hasStaticError_eq := by simp [static]
  hasRuntimeError_eq := by
    have other : report.isRuntime = false := by
      simpa [Report.isStatic, Report.isRuntime] using static
    simp [log.hasRuntimeError_eq, other]

/-- Records a lexical error. -/
def addLexical (log : Log) (error : LexicalError) : Log :=
  log.addStatic error.report rfl error.echo

/-- Records a syntax error. -/
def addSyntactic (log : Log) (error : SyntaxError) : Log :=
  log.addStatic error.report rfl error.echo

/-- Records a runtime error, at which execution has stopped. -/
def addRuntime (log : Log) (error : RuntimeError) : Log where
  reports := log.reports ++ [error.report]
  echoed := log.echoed ++ error.echo
  hasStaticError := log.hasStaticError
  hasRuntimeError := true
  hasStaticError_eq := by simp [log.hasStaticError_eq, RuntimeError.report, Report.isStatic]
  hasRuntimeError_eq := by simp [RuntimeError.report, Report.isRuntime]

/-- The reports of one kind, in order of arrival. -/
def ofKind (log : Log) (kind : ReportKind) : List Report :=
  log.reports.filter fun report => report.kind == kind

/-- Forgets all reports and lowers both signals. -/
def clear (log : Log) : Log :=
  ⟨[], log.echoed, false, false, rfl, rfl⟩

/-- Recording an error adds its report behind all others. -/
@[simp] theorem addLexical_reports (log : Log) (error : LexicalError) :
    (log.addLexical error).reports = log.reports ++ [error.report] := rfl

@[simp] theorem addSyntactic_reports (log : Log) (error : SyntaxError) :
    (log.addSyntactic error).reports = log.reports ++ [error.report] := rfl

@[simp] theorem addRuntime_reports (log : Log) (error : RuntimeError) :
    (log.addRuntime error).reports = log.reports ++ [error.report] := rfl

/-- Recording any number of errors adds their reports in order. -/
theorem reports_foldl {Error : Type} {record : Log → Error → Log} {report : Error → Report}
    (adds : ∀ log error, (record log error).reports = log.reports ++ [report error])
    (errors : List Error) (log : Log) :
    (errors.foldl record log).reports = log.reports ++ errors.map report := by
  induction errors generalizing log with
  | nil => exact (List.append_nil log.reports).symm
  | cons error others inductionHypothesis =>
    rw [List.foldl_cons, inductionHypothesis, adds, List.append_assoc]
    rfl

/-- A log is told by its reports and by what it has echoed: the signals follow from the reports. -/
theorem ext_reports {one two : Log} (reports : one.reports = two.reports)
    (echoed : one.echoed = two.echoed) : one = two := by
  have static : one.hasStaticError = two.hasStaticError := by
    rw [one.hasStaticError_eq, two.hasStaticError_eq, reports]
  have runtime : one.hasRuntimeError = two.hasRuntimeError := by
    rw [one.hasRuntimeError_eq, two.hasRuntimeError_eq, reports]
  cases one
  cases two
  simp_all

end Log

end LineScript
