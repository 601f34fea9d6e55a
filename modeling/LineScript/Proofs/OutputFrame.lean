/-
Module: LineScript.Proofs.OutputFrame
Purpose: A run adds to what was written before it, and takes from the front of its input.
Trusted boundary: none
Main exports: Machine.preceded, preceded_simulation, run_preceded, unread_run_suffix
-/
import LineScript.Proofs.RunInvariant
import LineScript.Proofs.StaticGate

/-!
A run never looks at the output or at what the log has echoed; it only adds to them. So whatever was
written before stays in front of what the run writes by itself. The input that a run leaves is the
end of the input it was given.
-/

namespace LineScript

/-! ### Lines of the input -/

namespace Text

section Line

variable {line : List Char} (oneLine : '\n' ∉ line) (rest : List Char)

include oneLine

theorem takeWhile_line : (line ++ '\n' :: rest).takeWhile (· != '\n') = line := by
  rw [List.takeWhile_append_of_pos fun char member => ?_]
  · simp
  · simpa using ne_of_mem_of_not_mem member oneLine

theorem dropWhile_line : (line ++ '\n' :: rest).dropWhile (· != '\n') = '\n' :: rest := by
  rw [List.dropWhile_append_of_pos fun char member => ?_]
  · simp
  · simpa using ne_of_mem_of_not_mem member oneLine

/-- The next line of a text that has a first line. -/
theorem nextLine_line : nextLine (line ++ '\n' :: rest) = (line ++ ['\n'], rest) := by
  unfold nextLine
  rw [dropWhile_line oneLine, takeWhile_line oneLine]

end Line

end Text

/-- Taking a line off a text loses nothing. -/
theorem Text.nextLine_append (text : List Char) :
    (nextLine text).1 ++ (nextLine text).2 = text := by
  have whole := List.takeWhile_append_dropWhile (p := (· != '\n')) (l := text)
  unfold nextLine
  split
  · exact List.append_nil text
  · rename_i newline rest found
    rw [found] at whole
    rw [List.append_assoc, List.singleton_append, whole]

theorem Text.nextLine_suffix (text : List Char) : (nextLine text).2 <:+ text :=
  ⟨(nextLine text).1, nextLine_append text⟩

/-- A line takes something from an input that is not at its end. -/
theorem Text.nextLine_length {text : List Char} (nonempty : text ≠ []) :
    (nextLine text).2.length < text.length := by
  have whole := congrArg List.length (nextLine_append text)
  have taken : 0 < (nextLine text).1.length := by
    rw [List.length_pos_iff]
    unfold nextLine
    split
    · exact nonempty
    · simp
  rw [List.length_append] at whole
  omega

/-! ### Machines -/

namespace Machine

/-- The machine with a text in front of its output. -/
def preceded (written : String) (machine : Machine) : Machine :=
  { machine with output := written ++ machine.output }

@[simp] theorem preceded_scopes (written : String) (machine : Machine) :
    (machine.preceded written).scopes = machine.scopes := rfl

@[simp] theorem preceded_input (written : String) (machine : Machine) :
    (machine.preceded written).input = machine.input := rfl

/-- What is written comes behind what had been written before. -/
theorem write_preceded (written text : String) (machine : Machine) :
    (machine.preceded written).write text = (machine.write text).preceded written := by
  simp only [preceded, write, String.append_assoc]

/-- No step of a run depends on what was written before. -/
theorem preceded_simulation (written : String) :
    Simulation fun _ machine mirror => mirror = machine.preceded written where
  read _ name := by
    rintro machine _ rfl
    rw [Run.read_apply, Run.read_apply, preceded_scopes]
    cases machine.scopes.read name with
    | ok value => exact .ok value rfl
    | error error => exact .error _ rfl
  assign _ name value := by
    rintro machine _ rfl
    rw [Run.assign_apply, Run.assign_apply, preceded_scopes]
    cases machine.scopes.assign name (some value) with
    | ok pair => exact .ok () rfl
    | error error => exact .error _ rfl
  declare _ name type given := by
    rintro machine _ rfl
    rw [Run.declare_apply, Run.declare_apply, preceded_scopes]
    cases machine.scopes.declare name type given with
    | ok scopes => exact .ok () rfl
    | error error => exact .error _ rfl
  write _ text := by
    rintro machine _ rfl
    exact .ok () (write_preceded written text machine)
  nextLine _ token := by
    rintro machine _ rfl
    unfold Run.nextLine
    rw [preceded_input]
    split
    · exact .error _ rfl
    · exact .ok _ rfl
  push := by
    rintro _ machine _ rfl
    rfl
  pop := by
    rintro _ machine _ rfl
    rfl

end Machine

/-- How a run ended, with a text in front of the output. -/
def Run.preceded {α : Type} (written : String) : Ending α → Ending α
  | .ok value machine => .ok value (machine.preceded written)
  | .error stop machine => .error stop (machine.preceded written)

/-- Whatever was written before a run changes nothing in the run, since no step reads the output. -/
theorem Stmt.execEach_preceded (fuel : Nat) (program : List Stmt) (written : String)
    (machine : Machine) :
    execEach fuel program (machine.preceded written) =
      Run.preceded written (execEach fuel program machine) := by
  have same : Run.Fits False fuel fuel := .inl rfl
  have agree := (Machine.preceded_simulation written).execEach same 0 program machine _ rfl
  generalize execEach fuel program (machine.preceded written) = mirrored at agree ⊢
  generalize execEach fuel program machine = ending at agree ⊢
  cases agree with
  | ok value ends => rw [ends]; rfl
  | error stop ends => rw [ends]; rfl
  | unfinished impossible => exact impossible.elim

/-- What is unread stays the end of a text. -/
theorem Machine.unread_invariant (text : List Char) :
    Invariant fun machine => machine.input.unread <:+ text where
  assign name value := by
    intro machine start
    rw [Run.assign_apply]
    split
    · exact start
    · exact start
  declare name type given := by
    intro machine start
    rw [Run.declare_apply]
    split
    · exact start
    · exact start
  write _ _ start := start
  nextLine token := by
    intro machine start
    unfold Run.nextLine
    split
    · exact start
    · exact (Text.nextLine_suffix _).trans start
  push _ start := start
  pop _ start := start

/-! ### Logs and sessions -/

namespace Log

/-- The log with a text in front of what it has echoed. -/
def preceded (echoed : String) (log : Log) : Log :=
  { log with echoed := echoed ++ log.echoed }

theorem addLexical_preceded (echoed : String) (log : Log) (error : LexicalError) :
    (log.preceded echoed).addLexical error = (log.addLexical error).preceded echoed :=
  ext_reports rfl (String.append_assoc ..)

theorem addSyntactic_preceded (echoed : String) (log : Log) (error : SyntaxError) :
    (log.preceded echoed).addSyntactic error = (log.addSyntactic error).preceded echoed :=
  ext_reports rfl (String.append_assoc ..)

theorem addRuntime_preceded (echoed : String) (log : Log) (error : RuntimeError) :
    (log.preceded echoed).addRuntime error = (log.addRuntime error).preceded echoed :=
  ext_reports rfl (String.append_assoc ..)

/-- Recording any number of errors. -/
theorem foldl_preceded {Error : Type} {record : Log → Error → Log} {echoed : String}
    (adds : ∀ log error, record (log.preceded echoed) error = (record log error).preceded echoed)
    (errors : List Error) (log : Log) :
    errors.foldl record (log.preceded echoed) = (errors.foldl record log).preceded echoed := by
  induction errors generalizing log with
  | nil => rfl
  | cons error others inductionHypothesis =>
    rw [List.foldl_cons, List.foldl_cons, adds, inductionHypothesis]

end Log

namespace Session

/-- The session with texts in front of its output and of what its log has echoed. -/
def preceded (written echoed : String) (session : Session) : Session :=
  ⟨session.machine.preceded written, session.log.preceded echoed⟩

variable (written echoed : String) (session : Session)

theorem write_preceded (text : String) :
    (session.preceded written echoed).write text =
      (session.write text).preceded written echoed := by
  simp only [preceded, write, Machine.write_preceded]

/-- What was echoed before changes nothing in the check of a text. -/
theorem checked_preceded (source : String) :
    (session.preceded written echoed).checked source =
      (session.checked source).preceded written echoed := by
  unfold checked preceded
  rw [Log.foldl_preceded (Log.addLexical_preceded echoed),
    Log.foldl_preceded (Log.addSyntactic_preceded echoed)]

theorem shown_preceded (dump : Bool) (source : String) (program : List Stmt) :
    (session.preceded written echoed).shown dump source program =
      (session.shown dump source program).preceded written echoed := by
  unfold shown
  split
  · exact write_preceded written echoed session _
  · rfl

/-- Nor does it change the execution of a program. -/
theorem execute_preceded (fuel : Nat) (program : List Stmt) :
    (session.preceded written echoed).execute fuel program =
      Prod.map id (preceded written echoed) (session.execute fuel program) := by
  unfold execute
  rw [show (session.preceded written echoed).machine = session.machine.preceded written from rfl,
    Stmt.execEach_preceded]
  cases Stmt.execEach fuel program session.machine with
  | ok value machine => rfl
  | error stop machine =>
    cases stop with
    | error error =>
      exact congrArg (fun log => (Outcome.executed, Session.mk (machine.preceded written) log))
        (session.log.addRuntime_preceded echoed error)
    | breakdown cause => rfl
    | outOfFuel => rfl

/-- A text is run without regard to what was written before. -/
theorem run_preceded (fuel : Nat) (dump : Bool) (source : String) :
    (session.preceded written echoed).run fuel dump source =
      Prod.map id (preceded written echoed) (session.run fuel dump source) := by
  have static : ((session.checked source).preceded written echoed).log.hasStaticError =
      (session.checked source).log.hasStaticError := rfl
  rw [run_eq, run_eq, checked_preceded, static]
  cases (session.checked source).log.hasStaticError with
  | true => rfl
  | false =>
    cases (Program.parse (lex source).tokens).program with
    | none => rfl
    | some program =>
      dsimp only
      rw [shown_preceded, execute_preceded]

/-- Running a text takes from the front of the input. -/
theorem unread_run_suffix (fuel : Nat) (dump : Bool) (source : String) :
    (session.run fuel dump source).2.machine.input.unread <:+ session.machine.input.unread := by
  rcases session.run_cases source fuel dump with ⟨_, skipped⟩ | ⟨program, _, _, executed⟩
  · rw [skipped]
    exact List.suffix_refl _
  · rw [executed, machine_execute]
    refine (Machine.unread_invariant _).execEach fuel program _ ?_
    unfold shown
    split
    · exact List.suffix_refl _
    · exact List.suffix_refl _

end Session

end LineScript
