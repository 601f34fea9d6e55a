/-
Module: LineScript.Proofs.StaticGate
Purpose: A text is executed exactly when no static error stands in the log.
Trusted boundary: none
Main exports: staticReports, Session.checked, run_cases, Request, executed_iff_no_static_error
-/
import LineScript.Proofs.GrammarSoundness
import LineScript.Proofs.ScopeSignature
import LineScript.Proofs.SourceTiling
import LineScript.Proofs.StoreTyping

/-!
A session runs texts one after the other on one machine with one log, and the log may be cleared in
between. Which static errors stand in the log is known from the texts alone: they are those of the
texts that were run since the log was last cleared. They alone decide whether a text is executed. A
text that is not executed changes nothing but the log, and what runs always ends in the outermost
scope.
-/

namespace LineScript

/-! ### Static errors -/

/-- The reports of the static errors of a source text, the lexical ones first. -/
def staticReports (source : String) : List Report :=
  (lex source).errors.map LexicalError.report ++
    (Program.parse (lex source).tokens).errors.map SyntaxError.report

/-- Parsing fails exactly when it reports an error. -/
theorem Program.parse_isSome_iff_quiet (tokens : List Token) :
    (parse tokens).program.isSome ↔ (parse tokens).errors = [] := by
  rw [parse_eq]
  cases ending : statements (Progress.ofTokens tokens) with
  | ok found reached => by_cases quiet : reached.errors = [] <;> simp [quiet]
  | error error reached =>
    have grows : 0 < reached.errors.length := statements_ensures.error ending
    simp [List.ne_nil_of_length_pos grows]

namespace Log

/-- The reports of static errors, in order of arrival. -/
def staticPart (log : Log) : List Report :=
  log.reports.filter fun report => report.kind != .runtime

/-- There is a static error just when one of that part is reported. -/
theorem hasStaticError_eq_false_iff {log : Log} :
    log.hasStaticError = false ↔ log.staticPart = [] := by
  rw [log.hasStaticError_eq, staticPart]
  simp [Report.isStatic]

/-- Reports of static errors are added to the static part. -/
theorem staticPart_of_reports {log other : Log} {reports : List Report}
    (grown : other.reports = log.reports ++ reports)
    (static : ∀ report ∈ reports, report.kind ≠ .runtime) :
    other.staticPart = log.staticPart ++ reports := by
  have kept : reports.filter (fun report => report.kind != .runtime) = reports :=
    List.filter_eq_self.mpr fun report member => by simpa using static report member
  rw [staticPart, grown, List.filter_append, kept]
  rfl

/-- They leave the reports of runtime errors as they are. -/
theorem ofKind_runtime_of_reports {log other : Log} {reports : List Report}
    (grown : other.reports = log.reports ++ reports)
    (static : ∀ report ∈ reports, report.kind ≠ .runtime) :
    other.ofKind .runtime = log.ofKind .runtime := by
  have none : reports.filter (fun report => report.kind == .runtime) = [] :=
    List.filter_eq_nil_iff.mpr fun report member => by simpa using static report member
  rw [ofKind, grown, List.filter_append, none, List.append_nil]
  rfl

@[simp] theorem staticPart_addRuntime (log : Log) (error : RuntimeError) :
    (log.addRuntime error).staticPart = log.staticPart := by
  simp [staticPart, RuntimeError.report]

end Log

/-- Checking a text reports no runtime error. -/
theorem kind_of_mem_staticReports {source : String} :
    ∀ report ∈ staticReports source, report.kind ≠ .runtime := by
  intro report member
  rcases List.mem_append.mp member with lexical | grammatical
  · obtain ⟨error, _, rfl⟩ := List.mem_map.mp lexical
    simp [LexicalError.report]
  · obtain ⟨error, _, rfl⟩ := List.mem_map.mp grammatical
    simp [SyntaxError.report]

/-- It reports nothing just when lexer and parser find no error. -/
theorem staticReports_eq_nil_iff {source : String} :
    staticReports source = [] ↔
      (lex source).errors = [] ∧ (Program.parse (lex source).tokens).errors = [] := by
  simp [staticReports]

/-! ### One text -/

namespace Session

/-- The session with the static errors of a text in its log. -/
def checked (session : Session) (source : String) : Session :=
  { session with
    log := (Program.parse (lex source).tokens).errors.foldl Log.addSyntactic
      ((lex source).errors.foldl Log.addLexical session.log) }

/-- The session after a program was shown, if it is to be shown. -/
def shown (session : Session) (dump : Bool) (source : String) (program : List Stmt) : Session :=
  if dump then session.write (dumpProgram (lex source).tokens program) else session

section Run

variable (session : Session) (source : String)

/-- Checking adds the static reports of the text to the log. -/
theorem reports_checked :
    (session.checked source).log.reports = session.log.reports ++ staticReports source := by
  simp [checked, Log.reports_foldl Log.addSyntactic_reports, Log.reports_foldl Log.addLexical_reports,
    staticReports]

theorem staticPart_checked :
    (session.checked source).log.staticPart = session.log.staticPart ++ staticReports source :=
  Log.staticPart_of_reports (session.reports_checked source) kind_of_mem_staticReports

/-- A text without static errors leaves the log as it is. -/
theorem checked_of_clean (clean : staticReports source = []) :
    session.checked source = session := by
  obtain ⟨lexical, grammatical⟩ := staticReports_eq_nil_iff.mp clean
  simp [checked, lexical, grammatical]

/-- Dumping tokens and trees reports nothing. -/
theorem shown_log (dump : Bool) (program : List Stmt) :
    (session.shown dump source program).log = session.log := by
  unfold shown
  split <;> rfl

theorem shown_scopes (dump : Bool) (program : List Stmt) :
    (session.shown dump source program).machine.scopes = session.machine.scopes := by
  unfold shown
  split <;> rfl

theorem run_eq (fuel : Nat) (dump : Bool) :
    session.run fuel dump source =
      match (session.checked source).log.hasStaticError,
        (Program.parse (lex source).tokens).program with
      | false, some program =>
        ((session.checked source).shown dump source program).execute fuel program
      | _, _ => (.skipped, session.checked source) := by
  cases dump <;> rfl

/-- What a session does with a text: with static errors in the log nothing but note them, and
otherwise execute the program that the text is. -/
theorem run_cases (fuel : Nat) (dump : Bool) :
    ((session.checked source).log.staticPart ≠ [] ∧
      session.run fuel dump source = (.skipped, session.checked source)) ∨
    ∃ program, (session.checked source).log.staticPart = [] ∧
      (Program.parse (lex source).tokens).program = some program ∧
      session.run fuel dump source = (session.shown dump source program).execute fuel program := by
  rw [run_eq]
  by_cases clean : (session.checked source).log.staticPart = []
  · have quiet := Log.hasStaticError_eq_false_iff.mpr clean
    have own : staticReports source = [] := by
      rw [staticPart_checked, List.append_eq_nil_iff] at clean
      exact clean.2
    obtain ⟨program, parsed⟩ := Option.isSome_iff_exists.mp
      ((Program.parse_isSome_iff_quiet _).mpr (staticReports_eq_nil_iff.mp own).2)
    refine .inr ⟨program, clean, parsed, ?_⟩
    rw [quiet, parsed, checked_of_clean session source own]
  · have stopped : (session.checked source).log.hasStaticError = true := by
      simpa [← Log.hasStaticError_eq_false_iff] using clean
    refine .inl ⟨clean, ?_⟩
    rw [stopped]

end Run

/-- Executing a program reports no static error. -/
theorem staticPart_execute (session : Session) (fuel : Nat) (program : List Stmt) :
    (session.execute fuel program).2.log.staticPart = session.log.staticPart := by
  unfold execute
  split <;> simp

/-- What is executed is not skipped. -/
theorem execute_ne_skipped (session : Session) (fuel : Nat) (program : List Stmt) :
    (session.execute fuel program).1 ≠ .skipped := by
  unfold execute
  split <;> simp

variable (session : Session) (fuel : Nat) (dump : Bool) (source : String)

/-- Running a text adds its own static errors to those in the log, and no others. -/
theorem staticPart_run :
    (session.run fuel dump source).2.log.staticPart =
      session.log.staticPart ++ staticReports source := by
  rcases session.run_cases source fuel dump with ⟨_, skipped⟩ | ⟨program, clean, _, executed⟩
  · rw [skipped, staticPart_checked]
  · rw [executed, staticPart_execute, shown_log, ← staticPart_checked, clean]
    rw [staticPart_checked, List.append_eq_nil_iff] at clean
    exact clean.1

/-- Whatever becomes of a text, no scope is left open behind it. -/
theorem isRoot_run (root : session.machine.scopes.isRoot) :
    (session.run fuel dump source).2.machine.scopes.isRoot := by
  rcases session.run_cases source fuel dump with ⟨_, skipped⟩ | ⟨program, _, parsed, executed⟩
  · rw [skipped]
    exact root
  · rw [executed, machine_execute]
    refine (Program.parse_ordered parsed).keeps_atRoot fuel _ ?_
    rw [Machine.AtRoot, shown_scopes]
    exact root

/-! ### Any number of texts -/

/-- What is asked of a session. -/
inductive Request where
  | run (fuel : Nat) (dump : Bool) (source : String)
  | clearLog
  deriving DecidableEq, Repr

/-- Does what is asked. -/
def perform (session : Session) : Request → Session
  | .run fuel dump source => (session.run fuel dump source).2
  | .clearLog => session.clearLog

/-- The texts run since the log was last cleared, after one more request. -/
def Request.note (texts : List String) : Request → List String
  | .run _ _ source => texts ++ [source]
  | .clearLog => []

/-- The texts run since some requests last cleared the log. -/
def Request.textsSinceClear (requests : List Request) : List String :=
  requests.foldl note []

/-- The session has no scope open, and its log holds the static errors of the given texts. -/
structure Accounts (texts : List String) (session : Session) : Prop where
  root : session.machine.scopes.isRoot
  recorded : session.log.staticPart = texts.flatMap staticReports

/-- One request keeps the account of the texts checked since the last reset. -/
theorem Accounts.perform {texts : List String} {session : Session}
    (accounts : Accounts texts session) (request : Request) :
    Accounts (request.note texts) (session.perform request) := by
  cases request with
  | run fuel dump source =>
    refine ⟨session.isRoot_run fuel dump source accounts.root, ?_⟩
    rw [Session.perform, staticPart_run, accounts.recorded, Request.note, List.flatMap_append,
      List.flatMap_singleton]
  | clearLog => exact ⟨accounts.root, rfl⟩

/-- Any number of requests keep the account. -/
theorem Accounts.performAll {texts : List String} {session : Session}
    (accounts : Accounts texts session) (requests : List Request) :
    Accounts (requests.foldl Request.note texts) (requests.foldl Session.perform session) := by
  induction requests generalizing texts session with
  | nil => exact accounts
  | cons request rest inductionHypothesis => exact inductionHypothesis (accounts.perform request)

/-- Does all that is asked, in order. -/
def performAll (session : Session) (requests : List Request) : Session :=
  requests.foldl perform session

/-- In a session that began with no report and no open scope, whatever was run and cleared since,
the static errors in the log behind a text are those of the texts since the log was last cleared,
its own included. The text is executed exactly if there are none, so runtime errors never keep it
from being executed. If it is not executed, variables, unread input and output stay as they are and
no runtime error is reported. No scope is open behind it in any case. -/
theorem executed_iff_no_static_error (begun : Session) (fresh : begun.log.reports = [])
    (root : begun.machine.scopes.isRoot) (requests : List Request) (fuel : Nat) (dump : Bool)
    (source : String) :
    let session := begun.performAll requests
    let texts := Request.textsSinceClear requests ++ [source]
    let ran := session.run fuel dump source
    ran.2.log.staticPart = texts.flatMap staticReports ∧
      (ran.1 ≠ .skipped ↔ ∀ text ∈ texts, staticReports text = []) ∧
      (ran.1 ≠ .skipped → ∃ program, (Program.parse (lex source).tokens).program = some program ∧
        ran = (session.shown dump source program).execute fuel program) ∧
      (ran.1 = .skipped → ran.2.machine = session.machine ∧
        ran.2.log.ofKind .runtime = session.log.ofKind .runtime) ∧
      ran.2.machine.scopes.isRoot := by
  have begins : Accounts [] begun := ⟨root, by rw [Log.staticPart, fresh]; rfl⟩
  have accounts : Accounts (Request.textsSinceClear requests) (begun.performAll requests) :=
    begins.performAll requests
  intro session texts ran
  have recorded : (session.checked source).log.staticPart = texts.flatMap staticReports := by
    rw [staticPart_checked, accounts.recorded, List.flatMap_append, List.flatMap_singleton]
  have stillRoot : ran.2.machine.scopes.isRoot := isRoot_run session fuel dump source accounts.root
  refine ⟨?_, ?_⟩
  · rw [staticPart_run, ← staticPart_checked, recorded]
  rw [← List.flatMap_eq_nil_iff, ← recorded]
  rcases session.run_cases source fuel dump with
    ⟨stopped, skipped⟩ | ⟨program, clean, parsed, executed⟩
  -- A skipped run stops behind the checking, which adds static reports only.
  · have unchanged := Log.ofKind_runtime_of_reports (session.reports_checked source)
      kind_of_mem_staticReports
    have outcome : ran.1 = .skipped := congrArg Prod.fst skipped
    have behind : ran.2 = session.checked source := congrArg Prod.snd skipped
    refine ⟨by simp [outcome, stopped], fun other => absurd outcome other, fun _ => ?_, stillRoot⟩
    rw [behind]
    exact ⟨rfl, unchanged⟩
  · have outcome : ran.1 ≠ .skipped := by
      rw [show ran = _ from executed]
      exact execute_ne_skipped _ _ _
    exact ⟨by simp [outcome, clean], fun _ => ⟨program, parsed, executed⟩,
      fun other => absurd other outcome, stillRoot⟩

/-- Requests among which a text is broken, the log is cleared, and a text divides by zero. -/
def mixedRequests : List Request :=
  [.run 0 false "SCRIPT AREA\nSTART SCRIPT\n?\nEND SCRIPT\n", .clearLog,
    .run 0 false "SCRIPT AREA\nSTART SCRIPT\nDECLARE INT n=1/0\nEND SCRIPT\n"]

/-- A text that prints a line. -/
def printingText : String :=
  "SCRIPT AREA\nSTART SCRIPT\nPRINT: 7\nEND SCRIPT\n"

theorem printingText_executed :
    (start ⟨[], false⟩).log.reports = [] ∧ (start ⟨[], false⟩).machine.scopes.isRoot ∧
      ((start ⟨[], false⟩).performAll mixedRequests).log.hasRuntimeError ∧
      (((start ⟨[], false⟩).performAll mixedRequests).run 0 false printingText).1 ≠ .skipped ∧
      (((start ⟨[], false⟩).performAll mixedRequests).run 0 false
        printingText).2.machine.scopes.isRoot := by
  have gate := executed_iff_no_static_error (start ⟨[], false⟩) rfl rfl mixedRequests 0 false
    printingText
  refine ⟨rfl, rfl, by decide +kernel, gate.2.1.mpr ?_, gate.2.2.2.2⟩
  decide +kernel

end Session

end LineScript
