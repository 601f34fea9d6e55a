/-
Module: LineScript.Proofs.ExitStatus
Purpose: The exit status of a script agrees with what it wrote.
Trusted boundary: none
Main exports: FailsRunning, Verdict, verdict_run, exit_status_agrees
-/
import LineScript.Console
import LineScript.Proofs.EchoedLines

/-!
The exit status of a script is read off its log. It tells a text with static errors, which was not
executed, from a program that stopped at a runtime error, and both from one without errors. What the
console shows as errors are the lines echoed by the same log, one for each report.
-/

namespace LineScript

namespace Session

variable {session : Session} {fuel : Nat} {program : List Stmt}

theorem log_execute_of_error {error : RuntimeError} {machine : Machine}
    (stopped : Stmt.execEach fuel program session.machine = .error (.error error) machine) :
    (session.execute fuel program).2.log = session.log.addRuntime error := by
  rw [execute, stopped]

theorem log_execute_of_no_error
    (smooth : ¬ ∃ error machine,
      Stmt.execEach fuel program session.machine = .error (.error error) machine) :
    (session.execute fuel program).2.log = session.log := by
  unfold execute
  split
  · rfl
  · rename_i error machine stopped
    exact absurd ⟨error, machine, stopped⟩ smooth
  · rfl
  · rfl

end Session

theorem Text.unifyNewlines_eq_self {text : List Char} (noReturn : '\r' ∉ text) :
    unifyNewlines text = text := by
  fun_induction unifyNewlines text <;> simp_all

namespace Console

/-- A text without carriage returns is read back from its file as it is. -/
theorem decodeScript_toUTF8 {source : String} (noReturn : '\r' ∉ source.toList) :
    decodeScript source.toUTF8 = some source := by
  have valid : String.fromUTF8? source.toUTF8 = some source := dif_pos source.isValidUTF8
  rw [decodeScript, valid, Option.map_some, Text.unifyNewlines_eq_self noReturn,
    String.ofList_toList]

/-- Given the name of a script, the console runs its text. -/
theorem run_script {fuel : Nat} {dump : Bool} {input : Input} {file : String → Option ByteArray}
    {name : String} {bytes : ByteArray} {source : String}
    (noOption : name ≠ "-h" ∧ name ≠ "--help") (present : file name = some bytes)
    (decoded : decodeScript bytes = some source) :
    run fuel dump input file [name] = runScript fuel dump input source := by
  rw [run, if_neg (not_or.mpr noOption), present]
  simp only [runFile, decoded]

/-! ### Statuses -/

theorem statusOf_static {log : Log} (static : log.staticPart ≠ []) : statusOf log = 65 := by
  have found : log.hasStaticError = true := by
    simpa [← Log.hasStaticError_eq_false_iff] using static
  rw [statusOf, if_pos found]
  rfl

/-- What a script returned is what its session came to. -/
theorem runScript_of_status {fuel : Nat} {dump : Bool} {input : Input} {source : String}
    {code : Nat} (returned : (runScript fuel dump input source).ending = .status code) :
    let session := ((Session.start input).run fuel dump source).2
    code = statusOf session.log ∧
      runScript fuel dump input source = Result.ofSession (.status code) session := by
  generalize ran : (Session.start input).run fuel dump source = result
  obtain ⟨outcome, session⟩ := result
  unfold runScript at returned ⊢
  rw [ran] at returned ⊢
  cases outcome <;> cases returned <;> exact ⟨rfl, rfl⟩

/-! ### What becomes of a script -/

/-- The text is a program without static errors, and its execution stops at a runtime error. -/
def FailsRunning (fuel : Nat) (dump : Bool) (input : Input) (source : String) : Prop :=
  staticReports source = [] ∧
    ∃ program, (Program.parse (lex source).tokens).program = some program ∧
      ∃ error machine,
        Stmt.execEach fuel program ((Session.start input).shown dump source program).machine =
          .error (.error error) machine

/-- What a script came to. -/
inductive Verdict (fuel : Nat) (dump : Bool) (input : Input) (source : String) (session : Session) :
    Prop where
  /-- The text has static errors and was not executed. -/
  | refused (found : staticReports source ≠ []) (status : statusOf session.log = 65)
      (shown : session.log.echoed ≠ "") (untouched : session.machine = Machine.start input)
  /-- The program stopped at a runtime error, its only report. -/
  | failed (fails : FailsRunning fuel dump input source) (status : statusOf session.log = 70)
      (shown : IsLine session.log.echoed)
  /-- There is nothing to report. -/
  | passed (clean : staticReports source = []) (smooth : ¬ FailsRunning fuel dump input source)
      (status : statusOf session.log = 0) (shown : session.log.echoed = "")

theorem Verdict.of_static {fuel : Nat} {dump : Bool} {input : Input} {source : String}
    (found : staticReports source ≠ []) :
    Verdict fuel dump input source ((Session.start input).checked source) := by
  have balanced : ((Session.start input).checked source).log.Balanced :=
    Session.balanced_checked Log.balanced_empty source
  have reports := (Session.start input).reports_checked source
  refine .refused found ?_ ?_ rfl
  · exact statusOf_static ((Session.start input).staticPart_checked source ▸ found)
  · intro silent
    rw [balanced.reports_of_silent silent] at reports
    exact found reports.symm

theorem Verdict.of_execution {fuel : Nat} {dump : Bool} {input : Input} {source : String}
    {program : List Stmt} (clean : staticReports source = [])
    (parsed : (Program.parse (lex source).tokens).program = some program) :
    Verdict fuel dump input source
      (((Session.start input).shown dump source program).execute fuel program).2 := by
  have before := (Session.start input).shown_log source dump program
  by_cases fails : ∃ error machine,
      Stmt.execEach fuel program ((Session.start input).shown dump source program).machine =
        .error (.error error) machine
  · obtain ⟨error, machine, stopped⟩ := fails
    have log := Session.log_execute_of_error stopped
    rw [before] at log
    refine .failed ⟨clean, program, parsed, error, machine, stopped⟩ ?_ ?_
    · rw [log]
      rfl
    · rw [log]
      obtain ⟨line, oneLine, echo⟩ := RuntimeError.isLine_echo_of_run parsed stopped
      exact ⟨line, oneLine, String.empty_append.trans echo⟩
  · have log := Session.log_execute_of_no_error fails
    rw [before] at log
    refine .passed clean ?_ ?_ ?_
    · rintro ⟨_, other, otherParsed, otherFails⟩
      cases parsed.symm.trans otherParsed
      exact fails otherFails
    · rw [log]
      rfl
    · rw [log]
      rfl

/-- Every script comes to one of the three. -/
theorem verdict_run (fuel : Nat) (dump : Bool) (input : Input) (source : String) :
    Verdict fuel dump input source ((Session.start input).run fuel dump source).2 := by
  have static : ((Session.start input).checked source).log.staticPart = staticReports source :=
    (Session.start input).staticPart_checked source
  rcases (Session.start input).run_cases source fuel dump with
    ⟨stopped, skipped⟩ | ⟨program, clean, parsed, executed⟩
  · rw [skipped]
    exact .of_static (static ▸ stopped)
  · rw [executed]
    exact .of_execution (static ▸ clean) parsed

/-- If the console returns from a script, then with status 65 exactly for a text with a lexical or
syntax error, from which nothing is printed and no input read; with 70 exactly when the execution
stopped at a runtime error, of which one line tells; and with 0 exactly when no error is shown. The
errors shown are as many lines as there are reports. -/
theorem exit_status_agrees (fuel : Nat) (dump : Bool) (input : Input)
    (file : String → Option ByteArray) (name : String) (bytes : ByteArray) (source : String)
    (code : Nat) (noOption : name ≠ "-h" ∧ name ≠ "--help") (present : file name = some bytes)
    (decoded : decodeScript bytes = some source)
    (returned : (run fuel dump input file [name]).ending = .status code) :
    let result := run fuel dump input file [name]
    let session := ((Session.start input).run fuel dump source).2
    result = Result.ofSession (.status code) session ∧
      (code = 65 ↔
        (lex source).errors ≠ [] ∨ (Program.parse (lex source).tokens).errors ≠ []) ∧
      (code = 65 → result.output = "" ∧ session.machine.input = input) ∧
      (code = 70 ↔ FailsRunning fuel dump input source) ∧
      (code = 70 → IsLine result.errors) ∧
      (code = 0 ↔ result.errors = "") ∧
      result.errors.toList.count '\n' = session.log.reports.length := by
  rw [run_script noOption present decoded] at returned ⊢
  intro result session
  obtain ⟨status, same⟩ := runScript_of_status returned
  have balanced : session.log.Balanced := Session.balanced_run Log.balanced_empty fuel dump source
  have shown : result.errors = session.log.echoed := congrArg Result.errors same
  have static : staticReports source ≠ [] ↔
      (lex source).errors ≠ [] ∨ (Program.parse (lex source).tokens).errors ≠ [] := by
    rw [Ne, staticReports_eq_nil_iff, not_and_or]
  have written : result.output = session.machine.output := congrArg Result.output same
  refine ⟨same, ?_⟩
  rw [← static, written, shown, show code = statusOf session.log from status]
  -- The three verdicts are the three statuses; each settles every conjunct.
  have verdict : Verdict fuel dump input source session := verdict_run fuel dump input source
  cases verdict with
  | refused found status shown untouched =>
    have running : ¬ FailsRunning fuel dump input source := fun fails => found fails.1
    rw [status, untouched]
    exact ⟨by simp [found], fun _ => ⟨rfl, rfl⟩, by simp [running], by simp, by simp [shown],
      balanced⟩
  | failed fails status shown =>
    rw [status]
    exact ⟨by simp [fails.1], by simp, by simp [fails], fun _ => shown, by simp [shown.ne_empty],
      balanced⟩
  | passed clean smooth status shown =>
    rw [status]
    exact ⟨by simp [clean], by simp, by simp [smooth], by simp, by simp [shown], balanced⟩

/-- A script that divides by what it reads. -/
def dividingScript : String :=
  "SCRIPT AREA\nSTART SCRIPT\nDECLARE INT n\nSCAN: n\nPRINT: 1/n\nEND SCRIPT\n"

theorem dividingScript_status :
    let file := fun name => if name = "divide.lexor" then some dividingScript.toUTF8 else none
    let result := run 1 false ⟨"0\n".toList, false⟩ file ["divide.lexor"]
    result.ending = .status 70 ∧ FailsRunning 1 false ⟨"0\n".toList, false⟩ dividingScript ∧
      IsLine result.errors ∧ result.errors ≠ "" := by
  intro file result
  have decoded : decodeScript dividingScript.toUTF8 = some dividingScript :=
    decodeScript_toUTF8 (by decide)
  have status : result.ending = .status 70 := by
    rw [show result = _ from run_script (by decide) rfl decoded]
    decide +kernel
  obtain ⟨_, _, _, fails, line, silent, _⟩ := exit_status_agrees 1 false ⟨"0\n".toList, false⟩ file
    "divide.lexor" dividingScript.toUTF8 dividingScript 70 (by decide) rfl decoded status
  exact ⟨status, fails.mp rfl, line rfl, mt silent.mpr (by decide)⟩

end Console

end LineScript
