/-
Module: LineScript.Proofs.PaddedPrograms
Purpose: Blank lines and comments mean nothing to a program.
Trusted boundary: none
Main exports: Run.moveLine, Session.run_moveLines, padding_insignificant
-/
import LineScript.Proofs.Padding
import LineScript.Proofs.ParallelTrees
import LineScript.Proofs.RelatedRuns
import LineScript.Proofs.StaticGate

/-!
A text and the same text with blank lines and comments put in have tokens that match, so they are
both programs or both none, with trees that differ in the lines of their tokens only, and runs that
differ in the lines of their errors only.
-/

namespace LineScript

/-! ### Errors on other lines -/

/-- The reason why a program stopped, an error being on another line. -/
def Stop.moveLine (move : Nat → Nat) : Stop → Stop
  | .error found => .error { found with token := found.token.map (Token.moveLine move) }
  | stop => stop

/-- How a run ended, an error being on another line. -/
def Run.moveLine {α : Type} (move : Nat → Nat) : Run.Ending α → Run.Ending α
  | .ok value machine => .ok value machine
  | .error stop machine => .error (stop.moveLine move) machine

theorem Pairing.moving_steady (move : Nat → Nat) : (Pairing.moving move).Steady :=
  ⟨fun _ => rfl, fun _ => rfl, fun _ fine => fine⟩

theorem Run.Alike.eq_moveLine {α : Type} {move : Nat → Nat} {one two : Run.Ending α}
    (alike : Run.Alike (.moving move) one two) : two = Run.moveLine move one := by
  cases alike with
  | ok value machine => rfl
  | error machine same => cases same <;> rfl

namespace Stmt

/-- Some statements with their tokens on other lines. -/
def moveLines (move : Nat → Nat) (program : List Stmt) : List Stmt :=
  program.map (mapTokens (Token.moveLine move))

/-- A program on other lines runs alike. -/
theorem execEach_moveLines {move : Nat → Nat} {program : List Stmt}
    (made : ∀ statement ∈ program, statement.MadeOf (Pairing.moving move).fine) (fuel : Nat)
    (machine : Machine) :
    execEach fuel (moveLines move program) machine =
      Run.moveLine move (execEach fuel program machine) := by
  have replayed := execEach_replayed (Pairing.moving_steady move) fuel program
    (eachMadeOf_iff.mpr made) machine
  rw [mapEach_eq_map] at replayed
  exact replayed.eq_moveLine

end Stmt

/-- Executing a program on other lines has the same outcome. -/
theorem Session.execute_moveLines {move : Nat → Nat} {program moved : List Stmt} {fuel : Nat}
    {session : Session}
    (same : Stmt.execEach fuel moved session.machine =
      Run.moveLine move (Stmt.execEach fuel program session.machine)) :
    (session.execute fuel moved).1 = (session.execute fuel program).1 ∧
      (session.execute fuel moved).2.machine = (session.execute fuel program).2.machine ∧
      (session.execute fuel moved).2.log.reports.map Report.kind =
        (session.execute fuel program).2.log.reports.map Report.kind := by
  unfold execute
  rw [same]
  generalize Stmt.execEach fuel program session.machine = ending
  cases ending with
  | ok value machine => exact ⟨rfl, rfl, rfl⟩
  | error stop machine =>
    cases stop with
    | error error =>
      refine ⟨rfl, rfl, ?_⟩
      simp [Run.moveLine, Stop.moveLine, RuntimeError.report]
    | breakdown cause => exact ⟨rfl, rfl, rfl⟩
    | outOfFuel => exact ⟨rfl, rfl, rfl⟩

/-- Two texts of the same kinds of static errors, in programs on other lines, come to the same in a
session. -/
theorem Session.run_moveLines {move : Nat → Nat} {one two : String} (session : Session) (fuel : Nat)
    (kinds : (staticReports two).map Report.kind = (staticReports one).map Report.kind)
    (parsed : (Program.parse (lex two).tokens).program =
      (Program.parse (lex one).tokens).program.map (Stmt.moveLines move))
    (runs : ∀ program, (Program.parse (lex one).tokens).program = some program → ∀ machine,
      Stmt.execEach fuel (Stmt.moveLines move program) machine =
        Run.moveLine move (Stmt.execEach fuel program machine)) :
    (session.run fuel false two).1 = (session.run fuel false one).1 ∧
      (session.run fuel false two).2.machine = (session.run fuel false one).2.machine ∧
      (session.run fuel false two).2.log.reports.map Report.kind =
        (session.run fuel false one).2.log.reports.map Report.kind := by
  have silent : staticReports two = [] ↔ staticReports one = [] := by
    rw [← List.map_eq_nil_iff, kinds, List.map_eq_nil_iff]
  have stops : (session.checked two).log.staticPart = [] ↔
      (session.checked one).log.staticPart = [] := by
    rw [staticPart_checked, staticPart_checked, List.append_eq_nil_iff, List.append_eq_nil_iff,
      silent]
  rcases session.run_cases one fuel false with ⟨stopped, skipped⟩ | ⟨program, clean, found, ran⟩
  · rcases session.run_cases two fuel false with ⟨_, mirrored⟩ | ⟨_, clean, _, _⟩
    · rw [skipped, mirrored]
      refine ⟨rfl, rfl, ?_⟩
      rw [reports_checked, reports_checked, List.map_append, List.map_append, kinds]
    · exact absurd (stops.mp clean) stopped
  · rcases session.run_cases two fuel false with ⟨stopped, _⟩ | ⟨other, _, otherFound, mirrored⟩
    · exact absurd (stops.mpr clean) stopped
    · rw [found, otherFound] at parsed
      cases parsed
      rw [ran, mirrored]
      exact execute_moveLines (runs program found session.machine)

namespace PaddedLine

/-- A line with nothing put above or behind it. -/
def bare (text : List Char) (oneLine : '\n' ∉ text) : PaddedLine :=
  ⟨[], text, [], oneLine, nofun, .inl rfl⟩

/-- Every text has lines to put something between. -/
theorem exists_source (text : String) : ∃ lines, source lines = text := by
  suffices ∃ first rest, joined PaddedLine.text (first :: rest) = text.toList by
    obtain ⟨first, rest, same⟩ := this
    exact ⟨first :: rest, by rw [source, same, String.ofList_toList]⟩
  induction text.toList with
  | nil => exact ⟨bare [] List.not_mem_nil, [], rfl⟩
  | cons char others inductionHypothesis =>
    obtain ⟨first, rest, same⟩ := inductionHypothesis
    by_cases newline : char = '\n'
    · exact ⟨bare [] List.not_mem_nil, first :: rest, by rw [joined_cons, same, newline]; rfl⟩
    · have oneLine : '\n' ∉ char :: first.text :=
        List.not_mem_cons_of_ne_of_not_mem (Ne.symm newline) first.oneLine
      refine ⟨bare (char :: first.text) oneLine, rest, ?_⟩
      rw [← same]
      cases rest <;> rfl

/-- Blank lines and comments between the lines of a text without lexical errors, and at their ends
behind a space, are insignificant. They add no lexical error; the padded text is a program exactly
when the text is one; the trees are equal but for the lines of their tokens, which are those where
the lines have moved; and from every machine both run alike, a runtime error being the same one at
the same column of the line that has moved. So a session makes of both texts the same. -/
theorem padding_insignificant (text : String) (lines : List PaddedLine)
    (given : source lines = text) (clean : (lex text).errors = []) :
    let parsed := Program.parse (lex text).tokens
    let move := movedLine lines
    (lex (padded lines)).errors = [] ∧
      (Program.parse (lex (padded lines)).tokens).program =
        parsed.program.map (Stmt.moveLines move) ∧
      (∀ program, parsed.program = some program → ∀ fuel machine,
        Stmt.execEach fuel (Stmt.moveLines move program) machine =
          Run.moveLine move (Stmt.execEach fuel program machine)) ∧
      ∀ (session : Session) (fuel : Nat),
        let ran := session.run fuel false text
        let paddedRan := session.run fuel false (padded lines)
        paddedRan.1 = ran.1 ∧ paddedRan.2.machine = ran.2.machine ∧
          paddedRan.2.log.reports.map Report.kind = ran.2.log.reports.map Report.kind := by
  subst given
  have lexed : ∀ chars, lex (String.ofList chars) = lexChars chars :=
    fun chars => by rw [lex, String.toList_ofList]
  rw [source, lexed] at clean
  obtain ⟨paddedClean, matching⟩ := lexChars_padded lines clean
  rw [← lexed, ← source] at clean
  rw [← lexed, ← padded] at paddedClean
  rw [← lexed, ← lexed, ← source, ← padded] at matching
  obtain ⟨parsed, made, errors⟩ := Program.parse_related matching
  have runs (program : List Stmt)
      (found : (Program.parse (lex (source lines)).tokens).program = some program) (fuel : Nat)
      (machine : Machine) := Stmt.execEach_moveLines (made program found) fuel machine
  refine ⟨paddedClean, parsed, runs, ?_⟩
  intro session fuel
  refine session.run_moveLines fuel ?_ parsed fun program found => runs program found fuel
  -- Reports differ in their lines only, so it is enough to count them.
  have kinds : ∀ reports : List SyntaxError,
      (reports.map SyntaxError.report).map Report.kind =
        List.replicate reports.length .grammatical := by
    intro reports
    rw [List.map_map]
    exact List.map_const'
  simp only [staticReports, clean, paddedClean, List.map_nil, List.nil_append]
  rw [kinds, kinds, errors.length_eq]

/-- A program that divides by zero on its third line, below a comment and an empty line. -/
def dividing : List PaddedLine :=
  [bare "SCRIPT AREA".toList (by decide), bare "START SCRIPT".toList (by decide),
    { above := [" %% divides".toList, []]
      text := "PRINT: 1/0".toList
      behind := " \t%% by zero".toList
      oneLine := by decide
      blankAbove := by
        have comment : Filler " %% divides".toList := .blank (by decide) (.comment (by decide))
        exact List.forall_mem_cons.mpr ⟨comment, List.forall_mem_singleton.mpr .nil⟩
      blankBehind := .inr ⟨_, rfl, .blank (by decide) (.comment (by decide))⟩ },
    bare "END SCRIPT".toList (by decide)]

theorem dividing_padding_insignificant :
    source dividing = "SCRIPT AREA\nSTART SCRIPT\nPRINT: 1/0\nEND SCRIPT" ∧
      padded dividing =
        "SCRIPT AREA\nSTART SCRIPT\n %% divides\n\nPRINT: 1/0 \t%% by zero\nEND SCRIPT" ∧
      (lex (source dividing)).errors = [] ∧ (lex (padded dividing)).errors = [] ∧
      movedLine dividing 3 = 5 ∧
      ((Session.start ⟨[], false⟩).run 0 false (padded dividing)).1 = .executed ∧
      ((Session.start ⟨[], false⟩).run 0 false (padded dividing)).2.log.reports.map Report.kind =
        [.runtime] := by
  have clean : (lex (source dividing)).errors = [] := by decide +kernel
  obtain ⟨paddedClean, _, _, runs⟩ := padding_insignificant _ dividing rfl clean
  obtain ⟨outcome, _, kinds⟩ := runs (Session.start ⟨[], false⟩) 0
  refine ⟨rfl, rfl, clean, paddedClean, rfl, outcome.trans ?_, kinds.trans ?_⟩
  · decide +kernel
  · decide +kernel

end PaddedLine

end LineScript
