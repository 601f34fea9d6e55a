/-
Module: LineScript.Proofs.ErrorPlaces
Purpose: Runtime errors are reported at tokens of the program.
Trusted boundary: none
Main exports: Stop.Located, Locates, exec_locates, report_located, runtime_errors_placed
-/
import LineScript.Proofs.Breakdown
import LineScript.Proofs.NameOrder
import LineScript.Proofs.ParsedTree
import LineScript.Proofs.SourceLiteral
import LineScript.Proofs.StaticGate

/-!
A runtime error is reported at an operator, a name or the token of a whole expression, all of which
are tokens of the program. An expression that is nothing but a literal has no token of its own. Used
as a condition it leaves the error to the keyword of its statement, which every parsed statement
has. Printed it stops at no error, because all literals of a text can be printed.
-/

namespace LineScript

/-- If the program stopped at a runtime error, this is reported at a fine token. -/
inductive Stop.Located (fine : Token → Prop) : Stop → Prop where
  | error (cause : Cause) {token : Token} (here : fine token) :
      Stop.Located fine (.error ⟨cause, some token⟩)
  | breakdown (cause : Breakdown) : Stop.Located fine (.breakdown cause)
  | outOfFuel : Stop.Located fine .outOfFuel

/-! ### Operators and scopes -/

section Steps

variable {fine : Token → Prop} {token : Token} (here : fine token) {stop : Stop}

include here

namespace Operator

/-- A value with too many digits to be printed is blamed on the token that was given. -/
theorem located_of_printed {content : Content}
    (failed : printed (some token) content = .error stop) : stop.Located fine := by
  unfold printed at failed
  split at failed
  · cases failed
  · cases failed
    exact .error _ here

theorem located_of_numberResult {result : Except Number.Fault Number}
    (failed : numberResult token result = .error stop) : stop.Located fine := by
  unfold numberResult stopOfFault at failed
  split at failed
  · cases failed
  · cases failed
    split
    · exact .error _ here
    · exact .error _ here
    · exact .breakdown _

/-- An operator on numbers blames what fails on itself. -/
theorem located_of_onNumbers {left right : Number}
    (failed : onNumbers token left right = .error stop) : stop.Located fine := by
  unfold onNumbers at failed
  split at failed
  case h_1 | h_2 | h_3 | h_4 | h_5 => exact located_of_numberResult here failed
  case h_6 | h_7 | h_8 | h_9 => cases failed
  case h_10 =>
    cases failed
    exact .breakdown _

/-- So does every operator with two operands. -/
theorem located_of_binary {left right : Content}
    (failed : binary token left right = .error stop) : stop.Located fine := by
  unfold binary at failed
  split at failed
  · rcases Action.except_bind_eq_error.mp failed with first | ⟨leftText, _, second⟩
    · exact located_of_printed here first
    · rcases Action.except_bind_eq_error.mp second with third | ⟨rightText, _, last⟩
      · exact located_of_printed here third
      · cases last
  · cases failed
  · cases failed
  · split at failed
    · exact located_of_onNumbers here failed
    · cases failed
      exact .error _ here

theorem located_of_truth {operand : Content} (failed : truth token operand = .error stop) :
    stop.Located fine := by
  unfold truth at failed
  split at failed
  · cases failed
  · cases failed
    exact .error _ here

theorem located_of_number {operand : Content} (failed : number token operand = .error stop) :
    stop.Located fine := by
  unfold number at failed
  split at failed
  · cases failed
  · cases failed
    exact .error _ here

/-- So does every operator with one. -/
theorem located_of_unary {operand : Content} (failed : unary token operand = .error stop) :
    stop.Located fine := by
  unfold unary at failed
  split at failed
  case h_1 =>
    rcases Action.except_bind_eq_error.mp failed with first | ⟨_, _, second⟩
    · exact located_of_truth here first
    · cases second
  case h_2 | h_3 =>
    rcases Action.except_bind_eq_error.mp failed with first | ⟨_, _, second⟩
    · exact located_of_number here first
    · cases second
  case h_4 =>
    cases failed
    exact .breakdown _

end Operator

namespace Scopes

variable {scopes : Scopes} {error : RuntimeError}

/-- A name that is bound nowhere is blamed on its own token. -/
theorem located_of_lookup (failed : scopes.lookup token = .error error) :
    (Stop.error error).Located fine := by
  unfold lookup at failed
  split at failed
  · cases failed
  · cases failed
    exact .error _ here

/-- A store that the type refuses is blamed on the token it was given. -/
theorem located_of_store {type : VarType} {name : String} {given : Content}
    (failed : type.store name given (some token) = .error error) :
    (Stop.error error).Located fine := by
  unfold VarType.store at failed
  split at failed
  · cases failed
  · cases failed
    exact .error _ here

theorem located_of_read (failed : scopes.read token = .error error) :
    (Stop.error error).Located fine := by
  rcases Action.except_bind_eq_error.mp failed with first | ⟨binding, _, second⟩
  · exact located_of_lookup here first
  · split at second
    · cases second
    · cases second
      exact .error _ here

/-- An assignment is blamed on the name, whether the name is unknown or its type refuses the
value. -/
theorem located_of_assign {given : Content} (failed : scopes.assign token given = .error error) :
    (Stop.error error).Located fine := by
  rcases Action.except_bind_eq_error.mp failed with first | ⟨binding, _, second⟩
  · exact located_of_lookup here first
  · rcases Action.except_bind_eq_error.mp second with third | ⟨stored, _, last⟩
    · exact located_of_store here third
    · cases last

theorem located_of_declare {type : VarType} {given : Content}
    (failed : scopes.declare token type given = .error error) :
    (Stop.error error).Located fine := by
  rcases Action.except_bind_eq_error.mp failed with first | ⟨stored, _, second⟩
  · cases given with
    | none => cases first
    | some value =>
      rcases Action.except_bind_eq_error.mp first with third | ⟨_, _, last⟩
      · exact located_of_store here third
      · cases last
  · cases second

end Scopes

end Steps

/-! ### Actions -/

namespace Run

variable {α β : Type} {fine : Token → Prop}

/-- Wherever the action is started, a runtime error that it stops at is reported at a fine token. -/
def Locates (fine : Token → Prop) (action : Run α) : Prop :=
  ∀ machine stop reached, action machine = .error stop reached → stop.Located fine

namespace Locates

theorem pure (value : α) : Locates fine (Pure.pure value : Run α) := by
  intro machine stop reached failed
  cases failed

/-- An action that fails with an error of its own locates it at its token. -/
theorem fail (cause : Cause) {token : Token} (here : fine token) :
    Locates fine (fail cause (some token) : Run α) := by
  intro machine stop reached failed
  cases failed
  exact .error cause here

theorem ofExcept {result : Except Stop α}
    (located : ∀ stop, result = .error stop → stop.Located fine) :
    Locates fine (ofExcept result) := by
  intro machine stop reached failed
  exact located stop (ofExcept_eq_error.mp failed).1

/-- Of the second action only what it does with possible results of the first one matters. -/
theorem bind_of_ok {action : Run α} {next : α → Run β} (first : Locates fine action)
    (second : ∀ machine value middle, action machine = .ok value middle →
      Locates fine (next value)) :
    Locates fine (action >>= next) := by
  intro machine stop reached failed
  rcases Action.bind_eq_error.mp failed with early | ⟨value, middle, found, late⟩
  · exact first machine stop reached early
  · exact second machine value middle found middle stop reached late

/-- Two actions that locate their errors do so one after the other. -/
theorem bind {action : Run α} {next : α → Run β} (first : Locates fine action)
    (second : ∀ value, Locates fine (next value)) : Locates fine (action >>= next) :=
  first.bind_of_ok fun _ value _ _ => second value

theorem inScope {action : Run α} (locates : Locates fine action) :
    Locates fine (inScope action) := by
  intro machine stop reached failed
  obtain ⟨inside, inner, _⟩ := inScope_eq_error.mp failed
  exact locates _ stop inside inner

/-- A loop locates its errors if its condition and its body do. -/
theorem whileLoop {test : Run Bool} {action : Run Unit} (tests : Locates fine test)
    (actions : Locates fine action) (fuel : Nat) : Locates fine (whileLoop test action fuel) := by
  induction fuel with
  | zero =>
    intro machine stop reached failed
    cases failed
    exact .outOfFuel
  | succ fuel inductionHypothesis =>
    refine tests.bind fun truth => ?_
    cases truth with
    | true => exact actions.bind fun _ => inductionHypothesis
    | false => exact pure ()

end Locates

section Names

variable {name : Token} (here : fine name)

include here

theorem read_locates : Locates fine (read name) := by
  intro machine stop reached failed
  rw [read_apply] at failed
  split at failed
  · cases failed
  · rename_i error refused
    cases failed
    exact Scopes.located_of_read here refused

theorem assign_locates (value : Value) : Locates fine (assign name value) := by
  intro machine stop reached failed
  rw [assign_apply] at failed
  split at failed
  · cases failed
  · rename_i error refused
    cases failed
    exact Scopes.located_of_assign here refused

theorem declare_locates (type : VarType) (given : Content) :
    Locates fine (declare name type given) := by
  intro machine stop reached failed
  rw [declare_apply] at failed
  split at failed
  · cases failed
  · rename_i error refused
    cases failed
    exact Scopes.located_of_declare here refused

/-- The end of the input is blamed on the name that asked for it. -/
theorem nextLine_locates : Locates fine (nextLine name) := by
  intro machine stop reached failed
  unfold nextLine at failed
  split at failed
  · cases failed
    split
    · exact .breakdown _
    · exact .error _ here
  · cases failed

/-- So is a line that cannot be read. -/
theorem readValues_locates : Locates fine (readValues name) := by
  refine (nextLine_locates here).bind fun line => ?_
  dsimp only
  split
  · exact .pure _
  · exact .fail _ here

end Names

theorem assignEach_locates {names : List Token} (fineNames : ∀ name ∈ names, fine name)
    (values : List Value) : Locates fine (assignEach (names.zip values)) := by
  induction names generalizing values with
  | nil => exact .pure ()
  | cons name rest inductionHypothesis =>
    obtain ⟨first, others⟩ := List.forall_mem_cons.mp fineNames
    cases values with
    | nil => exact .pure ()
    | cons value further =>
      exact (assign_locates first value).bind fun _ => inductionHypothesis others further

/-- Every name that is asked for is blamed for itself. -/
theorem scan_locates {first : Token} {others : List Token}
    (fineNames : ∀ name ∈ first :: others, fine name) : Locates fine (scan first others) := by
  have here := fineNames first List.mem_cons_self
  refine (readValues_locates here).bind fun values => ?_
  split
  · exact assignEach_locates fineNames values
  · exact .fail _ here

end Run

/-! ### Expressions -/

open Run

namespace Expr

variable {fine : Token → Prop} {expr : Expr}

/-- The token of a whole expression is one of those it is made of. -/
theorem MadeOf.fine_of_token? (made : expr.MadeOf fine) {token : Token}
    (found : expr.token? = some token) : fine token := by
  induction expr with
  | literal value => cases found
  | reference name =>
    cases found
    exact made.1
  | assign name value | unary operator operand | binary left operator right
  | logical left operator right =>
    cases found
    exact made.1.1
  | group inner inductionHypothesis => exact inductionHypothesis made found

/-- An expression without a token is a literal, maybe in parentheses, which can be printed. -/
theorem isPrintable_of_token?_eq_none (wellFormed : expr.WellFormed) (bare : expr.token? = none)
    {machine reached : Machine} {value : Value}
    (evaluated : expr.eval machine = .ok value reached) : value.isPrintable := by
  induction expr with
  | literal given =>
    cases evaluated
    exact wellFormed
  | reference name | assign name value | unary operator operand | binary left operator right
  | logical left operator right => cases bare
  | group inner inductionHypothesis => exact inductionHypothesis wellFormed bare evaluated

/-- An expression locates its errors: the token to blame belongs to the operator or the name that
failed. -/
theorem MadeOf.eval_locates (made : expr.MadeOf fine) : Locates fine expr.eval := by
  induction expr with
  | literal value => exact .pure value
  | reference name => exact read_locates made.1
  | assign name value inductionHypothesis =>
    refine (inductionHypothesis made.2).bind fun found => ?_
    exact (assign_locates made.1.1 found).bind fun _ => .pure found
  | unary operator operand inductionHypothesis =>
    refine (inductionHypothesis made.2).bind fun found => .ofExcept fun stop failed => ?_
    exact Operator.located_of_unary made.1.1 failed
  | binary left operator right leftHypothesis rightHypothesis =>
    refine (leftHypothesis made.2.1).bind fun first => ?_
    refine (rightHypothesis made.2.2).bind fun second => .ofExcept fun stop failed => ?_
    exact Operator.located_of_binary made.1.1 failed
  | logical left operator right leftHypothesis rightHypothesis =>
    have truths (operand : Content) :
        Locates fine (Run.ofExcept (Operator.truth operator operand)) :=
      .ofExcept fun _ failed => Operator.located_of_truth made.1.1 failed
    refine (leftHypothesis made.2.1).bind fun value => (truths _).bind fun first => ?_
    split
    · exact .pure _
    · refine (rightHypothesis made.2.2).bind fun value => (truths _).bind fun second => ?_
      exact .pure _
  | group inner inductionHypothesis => exact inductionHypothesis made

/-- A condition without a token of its own leaves its error to the keyword. -/
theorem MadeOf.evalCondition_locates (made : expr.MadeOf fine) {kinds : List TokenKind}
    {keyword : Option Token} (keyed : Stmt.Keyed fine kinds keyword) :
    Locates fine (expr.evalCondition keyword) := by
  obtain ⟨word, rfl, here, _⟩ := keyed
  intro machine stop reached failed
  rcases evalCondition_eq_error.mp failed with evaluation | ⟨value, _, _, rfl⟩
  · exact made.eval_locates machine stop reached evaluation
  · unfold refusal
    split
    · cases own : expr.token? with
      | none => exact .error _ here
      | some token => exact .error _ (made.fine_of_token? own)
    · exact .breakdown _

/-- What is printed without a token of its own can be printed. -/
theorem MadeOf.print_locates (made : expr.MadeOf fine) (wellFormed : expr.WellFormed) :
    Locates fine (print expr) := by
  refine made.eval_locates.bind_of_ok fun machine value middle evaluated => ?_
  have prints : Locates fine (Run.ofExcept (Operator.printed expr.token? (some value))) := by
    refine .ofExcept fun stop failed => ?_
    cases own : expr.token? with
    | none =>
      have printable := isPrintable_of_token?_eq_none wellFormed own evaluated
      simp [Operator.printed, Content.display?, Value.display?, printable] at failed
    | some token =>
      rw [own] at failed
      exact Operator.located_of_printed (made.fine_of_token? own) failed
  refine prints.bind fun text => ?_
  intro machine stop reached failed
  cases failed

end Expr

/-! ### Statements -/

/-- A declaration is blamed on the names it declares or inside their initial values. -/
theorem Run.declareEach_locates {fine : Token → Prop} (type : VarType) {names : List Declarator}
    (made : ∀ declarator ∈ names, declarator.MadeOf fine) :
    Locates fine (declareEach type names) := by
  induction names with
  | nil => exact .pure ()
  | cons declarator rest inductionHypothesis =>
    obtain ⟨⟨named, initialized⟩, others⟩ := List.forall_mem_cons.mp made
    have given : Locates fine (declarator.initializer.mapM Expr.eval) := by
      cases found : declarator.initializer with
      | none => exact .pure none
      | some expr => exact (initialized expr found).eval_locates.bind fun value => .pure _
    refine given.bind fun value => (declare_locates named.1 type value).bind fun _ => ?_
    exact inductionHypothesis others

namespace Stmt

variable {tokens : List Token}

mutual

/-- A statement locates its errors. A condition that is refused is blamed on a token inside it or,
if there is none, on the keyword in front of it. -/
theorem exec_locates (fuel : Nat)
    (printable : ∀ token ∈ tokens, ∀ value, token.literal = some value → value.isPrintable) :
    ∀ {statement : Stmt}, statement.MadeOf (· ∈ tokens) →
      Locates (· ∈ tokens) (statement.exec fuel)
  | .declare type _, made => declareEach_locates type made.2
  | .expression _, made => (Expr.MadeOf.eval_locates made).bind fun _ => .pure ()
  | .print _, made => Expr.MadeOf.print_locates made (Expr.MadeOf.wellFormed printable made)
  | .scan _ _, made => scan_locates fun name member => (made name member).1
  | .branch keyword condition thenBranch elseBranch, ⟨keyed, conditionMade, thenMade, elseMade⟩ => by
    refine (conditionMade.evalCondition_locates keyed).bind fun truth => ?_
    cases truth with
    | true => exact exec_locates fuel printable thenMade.2
    | false => exact execElse_locates fuel printable elseMade
  | .loop keyword condition body, ⟨keyed, conditionMade, bodyMade⟩ =>
    .whileLoop (conditionMade.evalCondition_locates keyed)
      (exec_locates fuel printable bodyMade.2) fuel
  | .block statements, made => (execEach_locates fuel printable made).inScope

theorem execElse_locates (fuel : Nat)
    (printable : ∀ token ∈ tokens, ∀ value, token.literal = some value → value.isPrintable) :
    ∀ {statement : Option Stmt}, ElseMadeOf (· ∈ tokens) statement →
      Locates (· ∈ tokens) (execElse fuel statement)
  | none, _ => .pure ()
  | some _, made => exec_locates fuel printable made.2

theorem execEach_locates (fuel : Nat)
    (printable : ∀ token ∈ tokens, ∀ value, token.literal = some value → value.isPrintable) :
    ∀ {statements : List Stmt}, EachMadeOf (· ∈ tokens) statements →
      Locates (· ∈ tokens) (execEach fuel statements)
  | [], _ => .pure ()
  | _ :: _, made =>
    (exec_locates fuel printable made.1).bind fun _ => execEach_locates fuel printable made.2

end

end Stmt

/-! ### Source texts -/

/-- Lines are counted from one. -/
theorem line_pos_of_mem_lex {source : String} {token : Token} (member : token ∈ (lex source).tokens) :
    1 ≤ token.position.line := by
  rcases (lex_tiling source).sorted.2 token member with first | behind
  · rw [first]
    exact Nat.le_refl 1
  · rcases behind with later | same
    · exact Nat.le_of_lt later
    · exact Nat.le_of_eq same.1

namespace Session

/-- An error that stops a parsed program is reported at one of its tokens. -/
theorem report_located {fuel : Nat} {source : String} {program : List Stmt}
    {machine reached : Machine} {error : RuntimeError}
    (parsed : (Program.parse (lex source).tokens).program = some program)
    (failed : Stmt.execEach fuel program machine = .error (.error error) reached) :
    ∃ token ∈ (lex source).tokens, error.token = some token := by
  have located := Stmt.execEach_locates fuel (lex_printable source) (Program.parse_madeOf parsed)
    machine _ reached failed
  cases located with
  | error cause here => exact ⟨_, here, rfl⟩

/-- Executing a program reports nothing but the runtime error that it stops at. -/
theorem execute_reports (session : Session) (fuel : Nat) (program : List Stmt) :
    ∃ recorded, (session.execute fuel program).2.log.reports = session.log.reports ++ recorded ∧
      ∀ report ∈ recorded, ∃ error reached,
        Stmt.execEach fuel program session.machine = .error (.error error) reached ∧
          report = error.report := by
  unfold execute
  split
  case h_2 error reached ending =>
    refine ⟨[error.report], rfl, fun report member => ?_⟩
    exact ⟨error, reached, ending, List.mem_singleton.mp member⟩
  case h_1 | h_3 | h_4 => exact ⟨[], (List.append_nil _).symm, List.forall_mem_nil _⟩

/-- In whatever state a session is, the runtime errors that it records for a text are at tokens of
this text, and their messages end with the line of the token. -/
theorem runtime_errors_placed (fuel : Nat) (dump : Bool) (source : String) (session : Session) :
    ∃ recorded, (session.run fuel dump source).2.log.reports = session.log.reports ++ recorded ∧
      ∀ report ∈ recorded, report.kind = .runtime →
        ∃ token ∈ (lex source).tokens, report.position = token.position ∧
          1 ≤ token.position.line ∧
          ∃ said, report.message = said ++ " on line " ++ Number.natText token.position.line := by
  rcases session.run_cases source fuel dump with ⟨_, skipped⟩ | ⟨program, _, parsed, executed⟩
  · rw [skipped]
    refine ⟨staticReports source, session.reports_checked source, ?_⟩
    intro report member runtime
    exact absurd runtime (kind_of_mem_staticReports report member)
  · rw [executed, ← session.shown_log source dump program]
    obtain ⟨recorded, grown, caused⟩ :=
      (session.shown dump source program).execute_reports fuel program
    refine ⟨recorded, grown, fun report member _ => ?_⟩
    obtain ⟨error, reached, failed, rfl⟩ := caused report member
    obtain ⟨token, listed, blamed⟩ := report_located parsed failed
    refine ⟨token, listed, ?_, line_pos_of_mem_lex listed, error.cause.text, ?_⟩
    · simp [RuntimeError.report, RuntimeError.position, blamed]
    · simp [RuntimeError.report, RuntimeError.message, blamed]

/-- A program that prints a number and then divides by zero. -/
def lateDivision : String :=
  "SCRIPT AREA\nSTART SCRIPT\nPRINT: 1\nPRINT: 7 - 1/0\nEND SCRIPT\n"

/-- The division is reported at its operator, on the fourth line. -/
theorem lateDivision_error_placed :
    let message := "Cannot divide by zero on line 4"
    ((start ⟨[], false⟩).run 1 false lateDivision).2.log.reports =
        [⟨.runtime, message, ⟨4, 13⟩⟩] ∧
      ∃ token ∈ (lex lateDivision).tokens, ⟨4, 13⟩ = token.position ∧ 1 ≤ token.position.line ∧
        ∃ said, message = said ++ " on line " ++ Number.natText token.position.line := by
  intro message
  obtain ⟨recorded, grown, placed⟩ :=
    runtime_errors_placed 1 false lateDivision (start ⟨[], false⟩)
  have computed : ((start ⟨[], false⟩).run 1 false lateDivision).2.log.reports =
      [⟨.runtime, message, ⟨4, 13⟩⟩] := by
    decide +kernel
  obtain rfl : recorded = [⟨.runtime, message, ⟨4, 13⟩⟩] := grown.symm.trans computed
  exact ⟨computed, placed _ List.mem_cons_self rfl⟩

end Session

end LineScript
