/-
Module: LineScript.Proofs.DeclarationOrder
Purpose: A parsed program declares its variables first, and nowhere else.
Trusted boundary: none
Main exports: Executable, Program.Ordered, Gives, statements_of_parse, parse_ordered
-/
import LineScript.Program
import LineScript.Proofs.Action

/-!
A declaration is parsed in one place only, in front of all other statements. The parser of
statements gives up at a declaration, so none is found between statements and none inside a block, a
branch or a loop. `Gives` says of a parser what it finds wherever it is started; since nothing is
asked of the tokens, the parts of a statement that are no statements need not be looked at.
-/

namespace LineScript

namespace Stmt

mutual

/-- No declaration stands in the statement, however deep. -/
def Executable : Stmt → Prop
  | .declare _ _ => False
  | .expression _ => True
  | .print _ => True
  | .scan _ _ => True
  | .branch _ _ thenBranch elseBranch => thenBranch.Executable ∧ ElseExecutable elseBranch
  | .loop _ _ body => body.Executable
  | .block statements => EachExecutable statements

/-- No declaration stands in the other branch of a conditional, if there is one. -/
def ElseExecutable : Option Stmt → Prop
  | none => True
  | some statement => statement.Executable

/-- No declaration stands in any of some statements. -/
def EachExecutable : List Stmt → Prop
  | [] => True
  | statement :: rest => statement.Executable ∧ EachExecutable rest

end

/-- Two runs of statements are executable one behind the other. -/
theorem eachExecutable_append {first second : List Stmt} (front : EachExecutable first)
    (back : EachExecutable second) : EachExecutable (first ++ second) := by
  induction first with
  | nil => exact back
  | cons statement rest inductionHypothesis =>
    obtain ⟨head, tail⟩ := front
    exact ⟨head, inductionHypothesis tail⟩

theorem eachExecutable_toList {found : Option Stmt}
    (executable : ∀ statement, found = some statement → statement.Executable) :
    EachExecutable found.toList := by
  cases found with
  | none => trivial
  | some statement => exact ⟨executable statement rfl, trivial⟩

/-- The tree of a counted loop holds no declaration if its body holds none. -/
theorem forLoop_executable (keyword : Token) (first condition last : Option Expr) {body : Stmt}
    (executable : body.Executable) : (forLoop keyword first condition last body).Executable := by
  have round : EachExecutable (body :: last.toList.map .expression) := by
    refine ⟨executable, ?_⟩
    cases last with
    | none => trivial
    | some expr => exact ⟨trivial, trivial⟩
  cases first with
  | none => exact round
  | some expr => exact ⟨trivial, round, trivial⟩

end Stmt

/-- Declarations, and behind them only statements in which nothing is declared. -/
inductive Program.Ordered : List Stmt → Prop where
  | statements {program : List Stmt} (executable : Stmt.EachExecutable program) : Ordered program
  | declaration {type : VarType} {names : List Declarator} {rest : List Stmt}
      (ordered : Ordered rest) : Ordered (.declare type names :: rest)

/-! ### What a parser finds -/

namespace Parse

variable {α β : Type}

/-- Wherever the parser is started, what it finds is good. -/
def Gives (parser : Parse α) (good : α → Prop) : Prop :=
  ∀ progress value reached, parser progress = .ok value reached → good value

/-- What is given without parsing is as good as it is. -/
theorem Gives.pure {value : α} {good : α → Prop} (holds : good value) :
    Gives (Pure.pure value : Parse α) good := by
  intro progress found reached ending
  cases ending
  exact holds

/-- What the second of two parsers gives may be told from what the first one has given. -/
theorem Gives.bind {parser : Parse α} {next : α → Parse β} {good : α → Prop} {final : β → Prop}
    (first : Gives parser good) (second : ∀ value, good value → Gives (next value) final) :
    Gives (parser >>= next) final := by
  intro progress value reached ending
  obtain ⟨found, middle, parsed, followed⟩ := Action.bind_eq_ok.mp ending
  exact second found (first progress found middle parsed) middle value reached followed

/-- Behind a parser whose result does not matter. -/
theorem Gives.after {parser : Parse α} {next : α → Parse β} {final : β → Prop}
    (second : ∀ value, Gives (next value) final) : Gives (parser >>= next) final := by
  have first : Gives parser fun _ => True := fun _ _ _ _ => trivial
  exact first.bind fun value _ => second value

theorem fail_gives (message : String) {good : α → Prop} : Gives (fail message) good := by
  intro progress value reached ending
  cases ending

/-- Where parsing resumes after an error, nothing was given. -/
theorem recover_gives {item : Parse α} {good : α → Prop} (gives : Gives item good) :
    Gives (recover item) fun found => ∀ value, found = some value → good value := by
  intro progress found reached ending value present
  unfold recover at ending
  cases parsed : item progress with
  | ok other middle =>
    rw [parsed] at ending
    cases ending
    cases present
    exact gives progress _ _ parsed
  | error error middle =>
    rw [parsed] at ending
    cases ending
    cases present

end Parse

/-! ### Statements -/

open Parse

namespace Stmt

/-- What is parsed as a declaration is one. -/
theorem declaration_gives :
    Gives declaration fun statement => ∃ type names, statement = .declare type names := by
  refine Gives.after fun _ => Gives.after fun type => Gives.after fun first => ?_
  refine Gives.after fun _ => Gives.after fun others => Gives.after fun _ => ?_
  exact Gives.pure ⟨type, first :: others, rfl⟩

theorem printing_gives : Gives printing Executable := by
  refine Gives.after fun _ => Gives.after fun _ => Gives.after fun expr => Gives.after fun _ => ?_
  exact Gives.pure trivial

theorem scanning_gives : Gives scanning Executable := by
  refine Gives.after fun _ => Gives.after fun _ => Gives.after fun first => ?_
  refine Gives.after fun _ => Gives.after fun others => Gives.after fun _ => ?_
  exact Gives.pure trivial

theorem expressionLine_gives : Gives expressionLine Executable := by
  refine Gives.after fun expr => Gives.after fun _ => ?_
  exact Gives.pure trivial

/-! #### Runs of statements and the forms that hold them -/

section Nested

variable {item : Parse Stmt} (itemGives : Gives item Executable)

include itemGives

/-- One turn of the loop over statements gives an executable statement, or none. -/
theorem round_gives :
    Gives (round item) fun found => ∀ statement, found = some statement →
      statement.Executable := by
  refine Gives.after fun stray => ?_
  split
  · refine Gives.after fun token => Gives.after fun _ => Gives.after fun _ => Gives.pure ?_
    intro statement absurdity
    cases absurdity
  · exact recover_gives itemGives

/-- So does any number of turns. -/
theorem runFrom_gives (nesting : Nesting) (bound : Nat) :
    Gives (runFrom nesting item bound) EachExecutable := by
  induction bound with
  | zero => exact Gives.pure trivial
  | succ bound inductionHypothesis =>
    refine Gives.after fun ended => ?_
    split
    · exact Gives.pure trivial
    · refine (round_gives itemGives).bind fun found foundExecutable => Gives.after fun _ => ?_
      refine inductionHypothesis.bind fun rest restExecutable => Gives.pure ?_
      exact eachExecutable_append (eachExecutable_toList foundExecutable) restExecutable

theorem run_gives (nesting : Nesting) : Gives (run nesting item) EachExecutable :=
  Gives.after fun _ => Gives.after fun bound => runFrom_gives itemGives nesting bound

/-- A block is executable, since declarations are refused inside. -/
theorem blockOf_gives (form : TokenKind) : Gives (blockOf item form) Executable := by
  refine Gives.after fun _ => Gives.after fun _ => Gives.after fun _ => Gives.after fun _ => ?_
  refine (run_gives itemGives .inBlock).bind fun statements executable => ?_
  exact Gives.after fun _ => Gives.after fun _ => Gives.pure executable

/-- A conditional is executable, with all its branches. -/
theorem conditional_gives (bound : Nat) : Gives (conditional item bound) Executable := by
  induction bound with
  | zero => exact fail_gives _
  | succ bound inductionHypothesis =>
    refine Gives.after fun keyword => Gives.after fun test => ?_
    refine (blockOf_gives itemGives _).bind fun thenBranch thenExecutable => ?_
    refine Gives.after fun _ => Gives.after fun _ => Gives.after fun found => ?_
    cases found with
    | none => exact Gives.pure ⟨thenExecutable, trivial⟩
    | some word =>
      refine Gives.after fun again => ?_
      split
      · refine inductionHypothesis.bind fun elseBranch elseExecutable => ?_
        exact Gives.pure ⟨thenExecutable, elseExecutable⟩
      · refine Gives.after fun _ => ?_
        refine (blockOf_gives itemGives _).bind fun elseBranch elseExecutable => ?_
        exact Gives.after fun _ => Gives.pure ⟨thenExecutable, elseExecutable⟩

/-- A loop on a condition is executable. -/
theorem repetition_gives : Gives (repetition item) Executable := by
  refine Gives.after fun keyword => Gives.after fun _ => Gives.after fun test => ?_
  refine (blockOf_gives itemGives _).bind fun body executable => ?_
  exact Gives.after fun _ => Gives.pure executable

/-- So is a counting loop, with what was built from its clauses. -/
theorem counting_gives : Gives (counting item) Executable := by
  refine Gives.after fun keyword => Gives.after fun _ => Gives.after fun first => ?_
  refine Gives.after fun _ => Gives.after fun test => Gives.after fun _ => ?_
  refine Gives.after fun last => Gives.after fun _ => Gives.after fun _ => ?_
  refine (blockOf_gives itemGives _).bind fun body executable => ?_
  refine Gives.after fun _ => Gives.pure ?_
  exact forLoop_executable keyword first test last executable

theorem statementOver_gives : Gives (statementOver item) Executable := by
  refine Gives.after fun token => ?_
  split
  · exact fail_gives _
  · exact printing_gives
  · exact scanning_gives
  · exact Gives.after fun bound => conditional_gives itemGives bound
  · exact repetition_gives itemGives
  · exact counting_gives itemGives
  · exact expressionLine_gives

end Nested

/-- Every statement but a declaration is executable, to any depth. -/
theorem statement_gives (bound : Nat) : Gives (statement bound) Executable := by
  induction bound with
  | zero => exact fail_gives _
  | succ bound inductionHypothesis => exact statementOver_gives inductionHypothesis

end Stmt

/-! ### Programs -/

namespace Program

/-- All of some statements are declarations. -/
def Declaring (statements : List Stmt) : Prop :=
  ∀ statement ∈ statements, ∃ type names, statement = .declare type names

/-- Declarations in front of executable statements make an ordered program. -/
theorem ordered_append {first second : List Stmt} (declaring : Declaring first)
    (executable : Stmt.EachExecutable second) : Ordered (first ++ second) := by
  induction first with
  | nil => exact .statements executable
  | cons statement rest inductionHypothesis =>
    obtain ⟨⟨type, names, rfl⟩, others⟩ := List.forall_mem_cons.mp declaring
    exact .declaration (inductionHypothesis others)

/-- An ordered program is declarations in front of executable statements. -/
theorem Ordered.split {program : List Stmt} (ordered : Ordered program) :
    ∃ declarations statements, program = declarations ++ statements ∧ Declaring declarations ∧
      Stmt.EachExecutable statements := by
  induction ordered with
  | statements executable => exact ⟨[], _, rfl, List.forall_mem_nil _, executable⟩
  | @declaration type names _ _ inductionHypothesis =>
    obtain ⟨declarations, statements, rfl, declaring, executable⟩ := inductionHypothesis
    refine ⟨.declare type names :: declarations, statements, rfl, ?_, executable⟩
    exact List.forall_mem_cons.mpr ⟨⟨type, names, rfl⟩, declaring⟩

/-- Only declarations are found among the declarations. -/
theorem declarationsFrom_gives (bound : Nat) : Gives (declarationsFrom bound) Declaring := by
  induction bound with
  | zero => exact Gives.pure (List.forall_mem_nil _)
  | succ bound inductionHypothesis =>
    refine Gives.after fun more => ?_
    split
    · refine (recover_gives Stmt.declaration_gives).bind fun found declares => ?_
      refine Gives.after fun _ => inductionHypothesis.bind fun rest restDeclaring => Gives.pure ?_
      intro statement member
      rcases List.mem_append.mp member with here | behind
      · exact declares statement (Option.mem_toList.mp here)
      · exact restDeclaring statement behind
    · exact Gives.pure (List.forall_mem_nil _)

/-- A program is ordered as soon as it is parsed to its end. -/
theorem statements_gives : Gives statements Ordered := by
  have declared : Gives declarations Declaring :=
    Gives.after fun _ => Gives.after fun bound => declarationsFrom_gives bound
  refine Gives.after fun _ => declared.bind fun first declaring => ?_
  refine Gives.bind (Gives.after fun bound => Stmt.run_gives (Stmt.statement_gives bound) .topLevel)
    fun rest executable => ?_
  exact Gives.after fun _ => Gives.pure (ordered_append declaring executable)

/-- An accepted program was parsed to its end. -/
theorem statements_of_parse {tokens : List Token} {program : List Stmt}
    (parsed : (parse tokens).program = some program) :
    ∃ reached, statements (Progress.ofTokens tokens) = .ok program reached := by
  rw [parse_eq] at parsed
  cases ending : statements (Progress.ofTokens tokens) with
  | error error reached =>
    rw [ending] at parsed
    cases parsed
  | ok found reached =>
    simp only [ending, Option.ite_none_right_eq_some, Option.some.injEq] at parsed
    obtain ⟨_, rfl⟩ := parsed
    exact ⟨reached, rfl⟩

/-- An accepted program declares its variables first, and nowhere else. -/
theorem parse_ordered {tokens : List Token} {program : List Stmt}
    (parsed : (parse tokens).program = some program) : Ordered program := by
  obtain ⟨reached, ending⟩ := statements_of_parse parsed
  exact statements_gives _ _ _ ending

end Program

end LineScript
