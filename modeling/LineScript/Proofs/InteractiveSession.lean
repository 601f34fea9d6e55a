/-
Module: LineScript.Proofs.InteractiveSession
Purpose: An interactive session is a sequence of isolated scripts.
Trusted boundary: none
Main exports: EnteredProgram, Scripts, loop_eq, Scripts.loop_eq, session_runs_isolated_scripts
-/
import LineScript.Proofs.ExitStatus
import LineScript.Proofs.InteractiveRounds

/-!
The lines of a program are collected up to the one that closes it, each asked for by a prompt. Then
the program runs on the input behind its last line, and what is shown for it is what is shown for
the script with its text on that input. The session goes on behind what the program has read, as if
it had just begun; so any number of programs are that many scripts, one after the other.
-/

namespace LineScript.Console

/-! ### Collecting lines -/

/-- The session with only some of its input left. -/
def leaving (rest : List Char) (session : Session) : Session :=
  { session with
    machine := { session.machine with
      input := { session.machine.input with unread := rest } } }

theorem readLine?_line {session : Session} {line rest : List Char} (oneLine : '\n' ∉ line)
    (unread : session.machine.input.unread = line ++ '\n' :: rest) :
    readLine? session = some (line, leaving rest session) := by
  unfold readLine?
  split
  · rename_i ended
    rw [unread] at ended
    simp at ended
  · rw [unread, Text.nextLine_line oneLine]
    dsimp only
    rw [Text.takeWhile_line oneLine []]
    rfl

theorem round_line {session : Session} {line : String} {rest : List Char}
    (oneLine : '\n' ∉ line.toList)
    (unread : session.machine.input.unread = line.toList ++ '\n' :: rest) (fuel : Nat)
    (dump : Bool) (collected : List String) :
    round fuel dump collected session =
      take fuel dump collected line.toList (leaving rest (session.write (prompt collected))) := by
  have asked : readLine? (session.write (prompt collected)) = _ := readLine?_line oneLine unread
  rw [round, asked]

/-- A line that neither leaves the session nor closes a program is collected. -/
theorem take_open {collected : List String} {line : String}
    (stays : collected = [] → ¬ isLeave line.toList) (unclosed : ¬ isClosing line.toList)
    (fuel : Nat) (dump : Bool) (session : Session) :
    take fuel dump collected line.toList session = .next (collected ++ [line]) session := by
  have remains : ¬ (collected.isEmpty && isLeave line.toList) = true := by
    simpa using stays
  simp only [take, if_neg remains, if_neg unclosed, String.ofList_toList]

/-- A line that closes a program runs what was collected. -/
theorem take_closing {line : String} (closes : isClosing line.toList) (fuel : Nat) (dump : Bool)
    (collected : List String) (session : Session) :
    take fuel dump collected line.toList session =
      let ran := session.clearLog.forget.run fuel dump (joinLines (collected ++ [line]))
      settle ran.2 ran.1 := by
  have remains : ¬ (collected.isEmpty && isLeave line.toList) = true := by
    have trimmed : Text.trim line.toList = "END SCRIPT".toList := by simpa [isClosing] using closes
    have other : isLeave line.toList = false := by
      rw [isLeave, trimmed]
      decide
    simp [other]
  simp only [take, if_neg remains, if_pos closes, String.ofList_toList]

/-- What lines are asked for with, behind lines that were collected before. -/
def promptsFrom : List String → List String → String
  | _, [] => ""
  | collected, line :: others => prompt collected ++ promptsFrom (collected ++ [line]) others

theorem joinLines_cons (line : String) (others : List String) :
    (joinLines (line :: others)).toList = line.toList ++ '\n' :: (joinLines others).toList := by
  simp [joinLines, String.join_cons]

/-- The lines above the one that closes a program are collected, a round for each. -/
theorem interactFrom_opening {opening : List String} (unbroken : ∀ line ∈ opening, OneLine line)
    (unclosed : ∀ line ∈ opening, ¬ isClosing line.toList) {collected : List String}
    (stays : collected = [] → ∀ line ∈ opening.head?, ¬ isLeave line.toList) {session : Session}
    {rest : List Char} (unread : session.machine.input.unread = (joinLines opening).toList ++ rest)
    (fuel : Nat) (dump : Bool) (bound : Nat) :
    interactFrom fuel dump (bound + opening.length) collected session =
      interactFrom fuel dump bound (collected ++ opening)
        (leaving rest (session.write (promptsFrom collected opening))) := by
  induction opening generalizing collected session with
  | nil =>
    have same : leaving rest (session.write "") = session := by
      rw [show rest = session.machine.input.unread from unread.symm]
      simp [leaving, Session.write, Machine.write]
    rw [promptsFrom, same, List.append_nil]
    rfl
  | cons line others inductionHypothesis =>
    obtain ⟨oneLine, laterUnbroken⟩ := List.forall_mem_cons.mp unbroken
    obtain ⟨isOpen, laterUnclosed⟩ := List.forall_mem_cons.mp unclosed
    have read : session.machine.input.unread =
        line.toList ++ '\n' :: ((joinLines others).toList ++ rest) := by
      rw [unread, joinLines_cons, List.append_assoc, List.cons_append]
    have firstStays : collected = [] → ¬ isLeave line.toList := fun begun => stays begun line rfl
    rw [List.length_cons, ← Nat.add_assoc, interactFrom_succ, round_line oneLine read,
      take_open firstStays isOpen, Round.resume,
      inductionHypothesis laterUnbroken laterUnclosed (by simp) rfl, List.append_assoc,
      List.singleton_append]
    congr 1
    simp [leaving, Session.write, Machine.write, promptsFrom, String.append_assoc]

/-- A session goes on behind a program that returns as a script. -/
theorem settle_of_status {fuel : Nat} {dump : Bool} {input : Input} {source : String} {code : Nat}
    (returned : (runScript fuel dump input source).ending = .status code) (session : Session) :
    settle session ((Session.start input).run fuel dump source).1 =
      .next [] (session.write "\n") := by
  unfold runScript at returned
  generalize (Session.start input).run fuel dump source = ran at returned ⊢
  obtain ⟨outcome, reached⟩ := ran
  cases outcome <;> first | rfl | cases returned

theorem transcript_behind {fuel : Nat} {dump : Bool} {bound : Nat} {ran : Session}
    (enough : ran.machine.input.unread.length < bound) (written echoed : String) :
    transcript (interactFrom fuel dump bound [] ((ran.preceded written echoed).write "\n")) =
      (loop fuel dump ran.machine.input).preceded (written ++ ran.machine.output ++ "\n")
        (echoed ++ ran.log.echoed) :=
  transcript_interactFrom fuel dump enough

/-! ### Entered programs -/

/-- A program as it is entered, line by line: the last line and no other closes it, and the first
one does not leave the session. -/
structure EnteredProgram where
  /-- The lines above the last one. -/
  opening : List String
  closing : String
  unbroken : ∀ line ∈ opening ++ [closing], '\n' ∉ line.toList ∧ '\r' ∉ line.toList
  closes : isClosing closing.toList
  unclosed : ∀ line ∈ opening, ¬ isClosing line.toList
  stays : ∀ line ∈ (opening ++ [closing]).head?, ¬ isLeave line.toList

namespace EnteredProgram

/-- The text of a program: its lines, each with a newline behind it. -/
def text (program : EnteredProgram) : String :=
  joinLines (program.opening ++ [program.closing])

/-- What the lines of a program are asked for with. -/
def prompts (program : EnteredProgram) : String :=
  ">>> " ++ String.join (List.replicate program.opening.length "... ")

end EnteredProgram

theorem promptsFrom_of_ne_nil {collected : List String} (begun : collected ≠ [])
    (lines : List String) :
    promptsFrom collected lines = String.join (List.replicate lines.length "... ") := by
  induction lines generalizing collected with
  | nil => rfl
  | cons line others inductionHypothesis =>
    have further : prompt collected = "... " := by simp [prompt, begun]
    rw [promptsFrom, inductionHypothesis (by simp), further, List.length_cons,
      List.replicate_succ, String.join_cons]

theorem EnteredProgram.promptsFrom_eq (program : EnteredProgram) :
    promptsFrom [] program.opening ++ prompt program.opening = program.prompts := by
  unfold prompts
  cases program.opening with
  | nil => rfl
  | cons line others =>
    have further : prompt (line :: others) = "... " := rfl
    rw [promptsFrom, promptsFrom_of_ne_nil (by simp), further, List.length_cons,
      List.replicate_succ', String.join_append, String.append_assoc]
    rfl

namespace EnteredProgram

variable (program : EnteredProgram)

theorem text_toList :
    program.text.toList =
      (joinLines program.opening).toList ++ (program.closing.toList ++ ['\n']) := by
  simp [text, joinLines, String.join_append, String.join_cons]

/-- The rounds for the lines of a program end with running it. -/
theorem interactFrom_lines {session : Session} {rest : List Char}
    (unread : session.machine.input.unread = program.text.toList ++ rest) (fuel : Nat) (dump : Bool)
    (bound : Nat) :
    interactFrom fuel dump (bound + 1 + program.opening.length) [] session =
      let input : Input := ⟨rest, session.machine.input.interrupts⟩
      let ran := (Session.start input).run fuel dump program.text
      (settle (ran.2.preceded (session.machine.output ++ program.prompts) session.log.echoed)
        ran.1).resume (interactFrom fuel dump bound) := by
  have unbroken : ∀ line ∈ program.opening, OneLine line := fun line member =>
    (program.unbroken line (List.mem_append_left _ member)).1
  have closingOneLine : OneLine program.closing := (program.unbroken program.closing (by simp)).1
  have stays : ∀ line ∈ program.opening.head?, ¬ isLeave line.toList := by
    intro line first
    refine program.stays line ?_
    rw [List.head?_append, Option.mem_def.mp first]
    rfl
  have read : session.machine.input.unread =
      (joinLines program.opening).toList ++ (program.closing.toList ++ '\n' :: rest) := by
    rw [unread, text_toList, List.append_assoc, List.append_assoc]
    rfl
  -- The opening lines leave the buffer unclosed; the closing line makes it a program to run.
  rw [interactFrom_opening unbroken program.unclosed (fun _ => stays) read, interactFrom_succ,
    List.nil_append, round_line closingOneLine rfl, take_closing program.closes]
  -- What ran before is only text in front of the output, so the run is one from the start.
  have follows : Follows (session.machine.output ++ program.prompts) session.log.echoed
      (Session.start ⟨rest, session.machine.input.interrupts⟩)
      (leaving rest ((leaving (program.closing.toList ++ '\n' :: rest)
        (session.write (promptsFrom [] program.opening))).write (prompt program.opening))) := by
    refine ⟨rfl, ?_, String.append_empty.symm⟩
    rw [← program.promptsFrom_eq]
    exact (String.append_assoc ..).trans String.append_empty.symm
  have begun (input : Input) : (Session.start input).clearLog.forget = Session.start input := rfl
  rw [follows.cleared, begun, Session.run_preceded, text]
  simp only [Prod.map_fst, Prod.map_snd, id_eq]

/-- A program is run as a script with its text. -/
theorem runFile_text (fuel : Nat) (dump : Bool) (input : Input) :
    runFile fuel dump input (some program.text.toUTF8) =
      runScript fuel dump input program.text := by
  have noReturn : '\r' ∉ program.text.toList := by
    simp only [text, joinLines, String.toList_join, List.mem_flatMap, List.mem_map]
    rintro ⟨_, ⟨line, member, rfl⟩, found⟩
    have absent := (program.unbroken line member).2
    simp [absent] at found
  simp only [runFile, decodeScript_toUTF8 noReturn]

/-- A session makes of a program what the program makes of itself as a script, and goes on as if it
had just begun. -/
theorem transcript_program {fuel : Nat} {dump : Bool} {session : Session} {bound : Nat}
    (enough : session.machine.input.unread.length < bound) {rest : List Char}
    (unread : session.machine.input.unread = program.text.toList ++ rest) {code : Nat}
    (returned : (runScript fuel dump ⟨rest, session.machine.input.interrupts⟩
      program.text).ending = .status code) :
    let input : Input := ⟨rest, session.machine.input.interrupts⟩
    let script := runScript fuel dump input program.text
    let left := ((Session.start input).run fuel dump program.text).2.machine.input
    transcript (interactFrom fuel dump bound [] session) =
      (loop fuel dump left).preceded
        (session.machine.output ++ program.prompts ++ script.output ++ "\n")
        (session.log.echoed ++ script.errors) := by
  intro input script left
  have suffix : left.unread <:+ rest := (Session.start input).unread_run_suffix fuel dump _
  have shorter : left.unread.length < session.machine.input.unread.length + 1 := by
    have bounded := suffix.length_le
    rw [unread, List.length_append]
    omega
  have room : session.machine.input.unread.length <
      session.machine.input.unread.length + 1 + 1 + program.opening.length := by omega
  rw [interactFrom_bound enough room, program.interactFrom_lines unread]
  dsimp only
  rw [settle_of_status returned, Round.resume,
    show script = _ from (runScript_of_status returned).2]
  dsimp only [Result.ofSession]
  rw [transcript_behind shorter]

/-- The same for a session that has just begun. -/
theorem loop_eq {fuel : Nat} {dump : Bool} {input : Input} {rest : List Char}
    (unread : input.unread = program.text.toList ++ rest) {code : Nat}
    (returned : (runScript fuel dump ⟨rest, input.interrupts⟩ program.text).ending =
      .status code) :
    let script := runScript fuel dump ⟨rest, input.interrupts⟩ program.text
    let left := ((Session.start ⟨rest, input.interrupts⟩).run fuel dump
      program.text).2.machine.input
    loop fuel dump input =
      (loop fuel dump left).preceded (program.prompts ++ script.output ++ "\n") script.errors := by
  have enough : (Session.start input).machine.input.unread.length < input.unread.length + 1 :=
    Nat.lt_succ_self _
  have shown := program.transcript_program enough unread returned
  have unwritten : (Session.start input).machine.output = "" := rfl
  have unechoed : (Session.start input).log.echoed = "" := rfl
  simp only [unwritten, unechoed, String.empty_append] at shown
  exact shown

end EnteredProgram

/-! ### Any number of programs -/

/-- Programs that are entered one after the other, each on the input that the one before it has
left, with what they show as scripts. The first input is the one they begin with, the second one
what they leave. -/
inductive Scripts (fuel : Nat) (dump : Bool) :
    Input → List (EnteredProgram × Result) → Input → Prop where
  | done (input : Input) : Scripts fuel dump input [] input
  | next (program : EnteredProgram) {rest : List Char} {code : Nat} {input left final : Input}
      {script : Result} {others : List (EnteredProgram × Result)}
      (entered : input.unread = program.text.toList ++ rest)
      (shows : runFile fuel dump ⟨rest, input.interrupts⟩ (some program.text.toUTF8) = script)
      (returned : script.ending = .status code)
      (leaves : ((Session.start ⟨rest, input.interrupts⟩).run fuel dump
        program.text).2.machine.input = left)
      (later : Scripts fuel dump left others final) :
      Scripts fuel dump input ((program, script) :: others) final

/-- The output of a session for some programs, told from their output as scripts. -/
def outputFor (runs : List (EnteredProgram × Result)) : String :=
  String.join (runs.map fun (program, script) => program.prompts ++ script.output ++ "\n")

/-- The errors of a session for some programs, told from their errors as scripts. -/
def errorsFor (runs : List (EnteredProgram × Result)) : String :=
  String.join (runs.map fun (_, script) => script.errors)

theorem Result.preceded_empty (result : Result) : result.preceded "" "" = result := by
  simp only [Result.preceded, String.empty_append]

theorem Result.preceded_preceded (written echoed before beforeErrors : String) (result : Result) :
    (result.preceded written echoed).preceded before beforeErrors =
      result.preceded (before ++ written) (beforeErrors ++ echoed) := by
  simp only [Result.preceded, String.append_assoc]

/-- A session is its programs as scripts, one after the other. -/
theorem Scripts.loop_eq {fuel : Nat} {dump : Bool} {input final : Input}
    {runs : List (EnteredProgram × Result)} (scripts : Scripts fuel dump input runs final) :
    loop fuel dump input = (loop fuel dump final).preceded (outputFor runs) (errorsFor runs) := by
  induction scripts with
  | done input => exact (Result.preceded_empty _).symm
  | next program entered shows returned leaves later inductionHypothesis =>
    subst leaves shows
    rw [program.runFile_text] at returned ⊢
    rw [program.loop_eq entered returned, inductionHypothesis, Result.preceded_preceded]
    simp only [outputFor, errorsFor, List.map_cons, String.join_cons]

/-- Wherever an interactive session has no lines collected, whatever was run before and whatever
variables and reports there are: if the input begins with a program that returns as a script on the
input behind it, the session asks for its lines, shows what the script shows and a newline, and goes
on as if it had just begun on the input that the program has left. So for any number of programs,
the session shows what they show as scripts, and nothing passes from one to a later one but the
input. -/
theorem session_runs_isolated_scripts (fuel : Nat) (dump : Bool) (session : Session) (bound : Nat)
    (enough : session.machine.input.unread.length < bound) :
    let shown := transcript (interactFrom fuel dump bound [] session)
    (∀ (program : EnteredProgram) (rest : List Char) (code : Nat),
      session.machine.input.unread = program.text.toList ++ rest →
      let input : Input := ⟨rest, session.machine.input.interrupts⟩
      let script := runFile fuel dump input (some program.text.toUTF8)
      script.ending = .status code →
      let left := ((Session.start input).run fuel dump program.text).2.machine.input
      let afresh := loop fuel dump left
      left.unread <:+ rest ∧
        shown = ⟨afresh.ending,
          session.machine.output ++ program.prompts ++ script.output ++ "\n" ++ afresh.output,
          session.log.echoed ++ script.errors ++ afresh.errors⟩) ∧
    ∀ (runs : List (EnteredProgram × Result)) (final : Input),
      Scripts fuel dump session.machine.input runs final →
      let afresh := loop fuel dump final
      shown = ⟨afresh.ending, session.machine.output ++ outputFor runs ++ afresh.output,
        session.log.echoed ++ errorsFor runs ++ afresh.errors⟩ := by
  intro shown
  refine ⟨?_, ?_⟩
  · intro program rest code entered input script returned left afresh
    refine ⟨(Session.start input).unread_run_suffix fuel dump _, ?_⟩
    rw [show script = _ from program.runFile_text fuel dump input] at returned ⊢
    exact program.transcript_program enough entered returned
  · intro runs final scripts afresh
    rw [show shown = _ from transcript_interactFrom fuel dump enough, scripts.loop_eq,
      Result.preceded_preceded]
    rfl

/-- A program that divides by what it reads. -/
def dividingEntered : EnteredProgram where
  opening := ["SCRIPT AREA", "START SCRIPT", "DECLARE INT n", "SCAN: n", "PRINT: 1/n"]
  closing := "END SCRIPT"
  unbroken := by decide
  closes := by decide
  unclosed := by decide
  stays := by decide

/-- The program is entered twice, each time with a line for it to read. -/
def dividingTwice : Input :=
  ⟨dividingEntered.text.toList ++
    ("0\n".toList ++ (dividingEntered.text.toList ++ "1\n".toList)), false⟩

theorem dividingTwice_isolated :
    let failing : Result :=
      ⟨.status 70, "", "[line 5] DivisionByZeroException: Cannot divide by zero on line 5\n"⟩
    let passing : Result := ⟨.status 0, "1", ""⟩
    let runs := [(dividingEntered, failing), (dividingEntered, passing)]
    Scripts 1 false dividingTwice runs ⟨[], false⟩ ∧
      interact 1 false dividingTwice =
        ⟨.status 0, greeting ++ outputFor runs ++ ">>> \n", errorsFor runs⟩ := by
  intro failing passing runs
  have second : Scripts 1 false ⟨dividingEntered.text.toList ++ "1\n".toList, false⟩
      [(dividingEntered, passing)] ⟨[], false⟩ := by
    refine .next dividingEntered rfl ?_ rfl ?_ (.done _)
    · rw [dividingEntered.runFile_text]
      decide +kernel
    · decide +kernel
  have scripts : Scripts 1 false dividingTwice runs ⟨[], false⟩ := by
    refine .next dividingEntered rfl ?_ rfl ?_ second
    · rw [dividingEntered.runFile_text]
      decide +kernel
    · decide +kernel
  obtain ⟨_, anyNumber⟩ := session_runs_isolated_scripts 1 false (Session.start dividingTwice)
    (dividingTwice.unread.length + 1) (Nat.lt_add_one _)
  refine ⟨scripts, ?_⟩
  rw [interact_eq, show loop 1 false dividingTwice = _ from anyNumber runs ⟨[], false⟩ scripts]
  decide +kernel

end LineScript.Console
