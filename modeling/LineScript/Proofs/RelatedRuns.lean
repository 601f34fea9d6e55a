/-
Module: LineScript.Proofs.RelatedRuns
Purpose: A tree runs like the same tree with its tokens replaced.
Trusted boundary: none
Main exports: Pairing.Steady, Stop.Matches, Alike, Replayed, execEach_replayed
-/
import LineScript.Proofs.ParallelParsing
import LineScript.Proofs.RunSimulation
import LineScript.Proofs.TreeTokens

/-!
A run looks at the kinds and the lexemes of the tokens in its tree and at nothing else. If a
replacement keeps both, the tree with its tokens replaced does the same from every machine, and an
error it stops at is the same error at the replaced token. What such an error says fits on one line
if all lexemes do, since whatever else it shows is quoted.
-/

namespace LineScript

/-- A pairing of tokens that a run cannot tell apart, with lexemes that break no line. -/
structure Pairing.Steady (pairing : Pairing) : Prop where
  kind : ∀ token, (pairing.replace token).kind = token.kind
  lexeme : ∀ token, (pairing.replace token).lexeme = token.lexeme
  oneLine : ∀ token, pairing.fine token → token.kind ≠ .newline → OneLine token.lexeme

namespace Pairing.Steady

variable {pairing : Pairing} (steady : pairing.Steady) {token : Token}

include steady

/-- A proper token of a kind other than a newline is spelled on one line. -/
theorem oneLine_of_kind {kind : TokenKind} (proper : pairing.fine token ∧ token.kind = kind)
    (other : kind ≠ .newline) : OneLine token.lexeme :=
  steady.oneLine token proper.1 (proper.2 ▸ other)

/-- So is one whose kind is on a list without the newline. -/
theorem oneLine_of_mem {kinds : List TokenKind} (proper : pairing.fine token ∧ token.kind ∈ kinds)
    (others : .newline ∉ kinds) : OneLine token.lexeme :=
  steady.oneLine token proper.1 fun newline => others (newline ▸ proper.2)

end Pairing.Steady

/-! ### Printed expressions -/

namespace Expr

variable {pairing : Pairing} (steady : pairing.Steady)

include steady

/-- A replacement leaves the lexemes of operators and names as they are, so an expression prints
alike. -/
theorem render_mapTokens (expr : Expr) : (expr.mapTokens pairing.replace).render = expr.render := by
  induction expr with
  | literal value => rfl
  | reference name => exact steady.lexeme name
  | assign name value inductionHypothesis =>
    simp only [mapTokens, render, steady.lexeme, inductionHypothesis]
  | unary operator operand inductionHypothesis =>
    simp only [mapTokens, render, steady.lexeme, inductionHypothesis]
  | binary left operator right leftHypothesis rightHypothesis =>
    simp only [mapTokens, render, steady.lexeme, leftHypothesis, rightHypothesis]
  | logical left operator right leftHypothesis rightHypothesis =>
    simp only [mapTokens, render, steady.lexeme, leftHypothesis, rightHypothesis]
  | group inner inductionHypothesis => simp only [mapTokens, render, inductionHypothesis]

omit steady in
/-- Whether an expression can be printed depends on its literals, which are not replaced. -/
theorem isPrintable_mapTokens (replace : Token → Token) (expr : Expr) :
    (expr.mapTokens replace).isPrintable = expr.isPrintable := by
  induction expr <;> simp_all [mapTokens, isPrintable]

theorem render?_mapTokens (expr : Expr) :
    (expr.mapTokens pairing.replace).render? = expr.render? := by
  rw [render?, render?, isPrintable_mapTokens, render_mapTokens steady]

omit steady in
/-- Errors about an expression are reported at the replaced token. -/
theorem token?_mapTokens (replace : Token → Token) (expr : Expr) :
    (expr.mapTokens replace).token? = expr.token?.map replace := by
  induction expr with
  | group inner inductionHypothesis => exact inductionHypothesis
  | _ => rfl

/-- An expression made of fine tokens is printed on one line. -/
theorem oneLine_render {expr : Expr} (made : expr.MadeOf pairing.fine) : OneLine expr.render := by
  induction expr with
  | literal value => exact oneLine_renderLiteral value
  | reference name => exact steady.oneLine_of_kind made (by decide)
  | assign name value inductionHypothesis =>
    have named := steady.oneLine_of_kind made.1 (by decide)
    simp only [render, oneLine_append, named, inductionHypothesis made.2, and_true]
    decide
  | unary operator operand inductionHypothesis =>
    have operated := steady.oneLine_of_mem made.1 (by decide)
    simp only [render, oneLine_append, operated, inductionHypothesis made.2, and_true]
    decide
  | binary left operator right leftHypothesis rightHypothesis
  | logical left operator right leftHypothesis rightHypothesis =>
    have operated := steady.oneLine_of_mem made.1 (by decide)
    simp only [render, oneLine_append, operated, leftHypothesis made.2.1,
      rightHypothesis made.2.2, and_true]
    decide
  | group inner inductionHypothesis =>
    exact (inductionHypothesis made).framed (by decide) (by decide)

end Expr

/-! ### What errors say -/

namespace Cause

variable {token : Token} (oneLine : OneLine token.lexeme)

include oneLine

/-- An operator that is given other things than numbers is named in a text on one line. -/
theorem oneLine_notNumbers (left right : ValueKind) :
    OneLine (notNumbers token left right).text := by
  unfold notNumbers text
  dsimp only
  simp only [oneLine_append, oneLine, ValueKind.oneLine_label, and_true]
  decide

theorem oneLine_notANumber (kind : ValueKind) : OneLine (notANumber token kind).text := by
  unfold notANumber text
  dsimp only
  simp only [oneLine_append, oneLine, ValueKind.oneLine_label, and_true]
  decide

theorem oneLine_notATruthValue (kind : ValueKind) : OneLine (notATruthValue token kind).text := by
  unfold notATruthValue text
  dsimp only
  simp only [oneLine_append, oneLine, ValueKind.oneLine_label, and_true]
  decide

/-- A value that a variable refuses is told in a text on one line. -/
theorem oneLine_refusal (type : VarType) (given : Content) (refusal : VarType.Refusal) :
    OneLine (type.refusalCause token.lexeme given refusal).text := by
  cases refusal with
  | mismatch =>
    unfold VarType.refusalCause text
    dsimp only
    simp only [oneLine_append, oneLine, VarType.oneLine_label, ValueKind.oneLine_label, and_true]
    decide
  | tooLargeForFloat =>
    have fixed : OneLine tooLargeForFloat.text := by decide
    exact fixed

omit oneLine in
theorem oneLine_inputArity (expected actual : Nat) : OneLine (inputArity expected actual).text := by
  unfold text
  dsimp only
  simp only [oneLine_append, Number.oneLine_natText, and_true]
  decide

omit oneLine in
/-- A line of input that cannot be read is shown quoted, so on one line. -/
theorem oneLine_inputFormat (line : String) : OneLine (inputFormat line).text := by
  unfold text
  exact oneLine_append.mpr ⟨by decide, oneLine_quoted line⟩

omit oneLine in
/-- A condition that is no truth value is shown as it is printed, on one line. -/
theorem oneLine_conditionNotBool (kind : ValueKind) {shown : String} (oneLine : OneLine shown) :
    OneLine (conditionNotBool kind shown).text := by
  unfold conditionNotBool text
  dsimp only
  simp only [oneLine_append, oneLine, ValueKind.oneLine_label, and_true]
  decide

end Cause

/-! ### Runs that end alike -/

/-- The second program stopped for the reason of the first: at the same error, reported at the
replaced token, which says something that fits on one line; at the same breakdown; or out of
fuel. -/
inductive Stop.Matches (pairing : Pairing) : Stop → Stop → Prop where
  | error {cause : Cause} (token : Option Token) (oneLine : OneLine cause.text) :
      Stop.Matches pairing (.error ⟨cause, token⟩) (.error ⟨cause, token.map pairing.replace⟩)
  | breakdown (cause : Breakdown) : Stop.Matches pairing (.breakdown cause) (.breakdown cause)
  | outOfFuel : Stop.Matches pairing .outOfFuel .outOfFuel

namespace Run

variable {α β : Type} {pairing : Pairing}

/-- Two runs end alike, in the same machine. -/
inductive Alike (pairing : Pairing) : Ending α → Ending α → Prop where
  | ok (value : α) (machine : Machine) : Alike pairing (.ok value machine) (.ok value machine)
  | error {stop mirror : Stop} (machine : Machine) (same : stop.Matches pairing mirror) :
      Alike pairing (.error stop machine) (.error mirror machine)

/-- Started in one machine, the two actions end alike. -/
def Replayed (pairing : Pairing) (action mirrored : Run α) : Prop :=
  ∀ machine, Alike pairing (action machine) (mirrored machine)

namespace Replayed

theorem pure (value : α) : Replayed pairing (Pure.pure value) (Pure.pure value) :=
  fun machine => .ok value machine

/-- Stopping at the same error, but for its token, is the same for the replacement. -/
theorem throw {stop mirror : Stop} (same : stop.Matches pairing mirror) :
    Replayed pairing (throw stop : Run α) (throw mirror) :=
  fun machine => .error machine same

/-- A failure at a token is replayed as the failure at the replaced token. -/
theorem fail {cause : Cause} (oneLine : OneLine cause.text) (token : Option Token) :
    Replayed pairing (fail cause token : Run α) (Run.fail cause (token.map pairing.replace)) :=
  throw (.error token oneLine)

/-- Two replays, one after the other, make a replay. -/
theorem bind {action mirrored : Run α} {next following : α → Run β}
    (first : Replayed pairing action mirrored)
    (second : ∀ value, Replayed pairing (next value) (following value)) :
    Replayed pairing (action >>= next) (mirrored >>= following) := by
  intro machine
  have middle := first machine
  rw [Action.bind_apply, Action.bind_apply]
  generalize action machine = result at middle ⊢
  generalize mirrored machine = other at middle ⊢
  cases middle with
  | ok value reached => exact second value reached
  | error reached same => exact .error reached same

/-- A replay stays one in a scope of its own. -/
theorem inScope {action mirrored : Run α} (replayed : Replayed pairing action mirrored) :
    Replayed pairing (inScope action) (Run.inScope mirrored) := by
  intro machine
  have inner := replayed { machine with scopes := machine.scopes.push }
  unfold Run.inScope
  generalize action _ = result at inner ⊢
  generalize mirrored _ = other at inner ⊢
  cases inner with
  | ok value reached => exact .ok value _
  | error reached same => exact .error _ same

/-- A loop is replayed by the loop of the replays, with the same fuel. -/
theorem whileLoop {test mirroredTest : Run Bool} {action mirrored : Run Unit}
    (tests : Replayed pairing test mirroredTest) (actions : Replayed pairing action mirrored)
    (fuel : Nat) :
    Replayed pairing (whileLoop test action fuel) (Run.whileLoop mirroredTest mirrored fuel) := by
  induction fuel with
  | zero => exact throw .outOfFuel
  | succ fuel inductionHypothesis =>
    refine tests.bind fun truth => ?_
    cases truth with
    | true => exact actions.bind fun _ => inductionHypothesis
    | false => exact pure ()

/-- A step that changes no machine, before other such steps. -/
theorem ofExcept_bind (step : Except Stop α) (following : α → Except Stop β) :
    ofExcept (step >>= following) = ofExcept step >>= fun value => ofExcept (following value) := by
  cases step <;> rfl

end Replayed

/-! #### Operators -/

section Operators

variable (steady : pairing.Steady)

/-- What cannot be printed is blamed on the replaced token. -/
theorem printed_replayed (token : Option Token) (content : Content) :
    Replayed pairing (ofExcept (Operator.printed token content))
      (ofExcept (Operator.printed (token.map pairing.replace) content)) := by
  unfold Operator.printed
  cases Content.display? content with
  | some text => exact .pure text
  | none => exact .throw (.error token (by decide))

/-- A failure of arithmetic is blamed on the replaced operator. -/
theorem numberResult_replayed (operator : Token) (result : Except Number.Fault Number) :
    Replayed pairing (ofExcept (Operator.numberResult operator result))
      (ofExcept (Operator.numberResult (pairing.replace operator) result)) := by
  cases result with
  | ok number => exact .pure _
  | error fault =>
    cases fault with
    | divisionByZero => exact .throw (.error (some operator) (by decide))
    | tooLargeForFloat => exact .throw (.error (some operator) (by decide))
    | infiniteDividend => exact .throw (.breakdown _)

include steady

theorem onNumbers_replayed (operator : Token) (left right : Number) :
    Replayed pairing (ofExcept (Operator.onNumbers operator left right))
      (ofExcept (Operator.onNumbers (pairing.replace operator) left right)) := by
  unfold Operator.onNumbers
  rw [steady.kind]
  split
  case h_1 | h_2 | h_3 | h_4 | h_5 => exact numberResult_replayed operator _
  case h_6 | h_7 | h_8 | h_9 => exact .pure _
  case h_10 =>
    rw [steady.lexeme]
    exact .throw (.breakdown _)

variable {operator : Token} (oneLine : OneLine operator.lexeme)

include oneLine

/-- An infix operator and its replacement do the same to all operands. -/
theorem binary_replayed (left right : Content) :
    Replayed pairing (ofExcept (Operator.binary operator left right))
      (ofExcept (Operator.binary (pairing.replace operator) left right)) := by
  unfold Operator.binary
  rw [steady.kind]
  split
  · simp only [Replayed.ofExcept_bind]
    refine (printed_replayed (some operator) left).bind fun leftText => ?_
    exact (printed_replayed (some operator) right).bind fun rightText => .pure _
  · exact .pure _
  · exact .pure _
  · split
    · exact onNumbers_replayed steady operator _ _
    · rw [Cause.notNumbers, Cause.notNumbers, steady.lexeme]
      exact .throw (.error (some operator) (Cause.oneLine_notNumbers oneLine _ _))

theorem truth_replayed (operand : Content) :
    Replayed pairing (ofExcept (Operator.truth operator operand))
      (ofExcept (Operator.truth (pairing.replace operator) operand)) := by
  unfold Operator.truth
  split
  · exact .pure _
  · rw [Cause.notATruthValue, Cause.notATruthValue, steady.lexeme]
    exact .throw (.error (some operator) (Cause.oneLine_notATruthValue oneLine _))

theorem number_replayed (operand : Content) :
    Replayed pairing (ofExcept (Operator.number operator operand))
      (ofExcept (Operator.number (pairing.replace operator) operand)) := by
  unfold Operator.number
  split
  · exact .pure _
  · rw [Cause.notANumber, Cause.notANumber, steady.lexeme]
    exact .throw (.error (some operator) (Cause.oneLine_notANumber oneLine _))

/-- A prefix operator and its replacement do the same to every operand. -/
theorem unary_replayed (operand : Content) :
    Replayed pairing (ofExcept (Operator.unary operator operand))
      (ofExcept (Operator.unary (pairing.replace operator) operand)) := by
  unfold Operator.unary
  rw [steady.kind]
  split
  · simp only [Replayed.ofExcept_bind]
    exact (truth_replayed steady oneLine operand).bind fun _ => .pure _
  · simp only [Replayed.ofExcept_bind]
    exact (number_replayed steady oneLine operand).bind fun _ => .pure _
  · simp only [Replayed.ofExcept_bind]
    exact (number_replayed steady oneLine operand).bind fun _ => .pure _
  · rw [steady.lexeme]
    exact .throw (.breakdown _)

end Operators

/-! #### Variables and input -/

section Variables

variable (steady : pairing.Steady) {name : Token}
  (named : pairing.fine name ∧ name.kind = .identifier)

include steady named

/-- A name and its replacement mean the same variable. -/
theorem read_replayed : Replayed pairing (read name) (read (pairing.replace name)) := by
  have oneLine := steady.oneLine_of_kind named (by decide)
  intro machine
  simp only [read_apply, Scopes.read, Scopes.lookup, steady.lexeme]
  cases machine.scopes.find? name.lexeme with
  | none => exact .error machine (.error (some name) (oneLine.framed (by decide) (by decide)))
  | some binding =>
    dsimp only [bind, Except.bind]
    cases binding.value with
    | none => exact .error machine (.error (some name) (oneLine.framed (by decide) (by decide)))
    | some value => exact .ok value machine

/-- They are given the same values, and refuse the same. -/
theorem assign_replayed (value : Value) :
    Replayed pairing (assign name value) (assign (pairing.replace name) value) := by
  have oneLine := steady.oneLine_of_kind named (by decide)
  intro machine
  simp only [assign_apply, Scopes.assign_eq, Scopes.lookup, VarType.store, steady.lexeme]
  cases machine.scopes.find? name.lexeme with
  | none => exact .error machine (.error (some name) (oneLine.framed (by decide) (by decide)))
  | some binding =>
    dsimp only
    cases binding.type.accept (some value) with
    | ok stored => exact .ok () _
    | error refusal =>
      exact .error machine (.error (some name) (Cause.oneLine_refusal oneLine _ _ refusal))

/-- They are declared alike. -/
theorem declare_replayed (type : VarType) (given : Content) :
    Replayed pairing (declare name type given) (declare (pairing.replace name) type given) := by
  have oneLine := steady.oneLine_of_kind named (by decide)
  intro machine
  simp only [declare_apply, Scopes.declare_eq, VarType.store, steady.lexeme]
  cases given with
  | none => exact .ok () _
  | some value =>
    dsimp only
    cases type.accept (some value) with
    | ok stored => exact .ok () _
    | error refusal =>
      exact .error machine (.error (some name) (Cause.oneLine_refusal oneLine _ _ refusal))

end Variables

/-- A line of input is read alike, since no token has a part in it but to be blamed. -/
theorem readValues_replayed (token : Token) :
    Replayed pairing (readValues token) (readValues (pairing.replace token)) := by
  have lines : Replayed pairing (nextLine token) (nextLine (pairing.replace token)) := by
    intro machine
    unfold nextLine
    split
    · split
      · exact .error machine (.breakdown _)
      · exact .error machine (.error (some token) (by decide))
    · exact .ok _ _
  refine lines.bind fun line => ?_
  dsimp only
  split
  · exact .pure _
  · exact .fail (Cause.oneLine_inputFormat _) (some token)

end Run

/-! #### Expressions and statements -/

section Trees

open Run

variable {pairing : Pairing} (steady : pairing.Steady)

include steady

/-- An expression of proper tokens and the same expression with these replaced end alike
everywhere. -/
theorem Expr.eval_replayed {expr : Expr} (made : expr.MadeOf pairing.fine) :
    Replayed pairing expr.eval (expr.mapTokens pairing.replace).eval := by
  induction expr with
  | literal value => exact .pure value
  | reference name => exact read_replayed steady made
  | assign name value inductionHypothesis =>
    refine (inductionHypothesis made.2).bind fun found => ?_
    exact (assign_replayed steady made.1 found).bind fun _ => .pure found
  | unary operator operand inductionHypothesis =>
    have oneLine := steady.oneLine_of_mem made.1 (by decide)
    exact (inductionHypothesis made.2).bind fun found => unary_replayed steady oneLine (some found)
  | binary left operator right leftHypothesis rightHypothesis =>
    have oneLine := steady.oneLine_of_mem made.1 (by decide)
    refine (leftHypothesis made.2.1).bind fun first => ?_
    refine (rightHypothesis made.2.2).bind fun second => ?_
    exact binary_replayed steady oneLine (some first) (some second)
  | logical left operator right leftHypothesis rightHypothesis =>
    have oneLine := steady.oneLine_of_mem made.1 (by decide)
    refine (leftHypothesis made.2.1).bind fun value => ?_
    refine (truth_replayed steady oneLine (some value)).bind fun first => ?_
    rw [steady.kind]
    split
    · exact .pure _
    · refine (rightHypothesis made.2.2).bind fun value => ?_
      exact (truth_replayed steady oneLine (some value)).bind fun second => .pure _
  | group inner inductionHypothesis => exact inductionHypothesis made

/-- So do conditions, which are blamed on the replaced keyword if they have no token. -/
theorem Expr.evalCondition_replayed {expr : Expr} (made : expr.MadeOf pairing.fine)
    (keyword : Option Token) :
    Replayed pairing (expr.evalCondition keyword)
      ((expr.mapTokens pairing.replace).evalCondition (keyword.map pairing.replace)) := by
  refine (expr.eval_replayed steady made).bind fun value => ?_
  split
  · exact .pure _
  · rw [render?_mapTokens steady, token?_mapTokens, ← Option.map_or]
    split
    · rename_i shown found
      have oneLine : OneLine shown := by
        unfold render? at found
        split at found
        · exact Option.some.inj found ▸ oneLine_render steady made
        · cases found
      exact .fail (Cause.oneLine_conditionNotBool _ oneLine) _
    · exact .throw (.breakdown _)

namespace Run

theorem assignEach_replayed {names : List Token}
    (named : ∀ name ∈ names, pairing.fine name ∧ name.kind = .identifier) (values : List Value) :
    Replayed pairing (assignEach (names.zip values))
      (assignEach ((names.map pairing.replace).zip values)) := by
  induction names generalizing values with
  | nil => exact .pure ()
  | cons name rest inductionHypothesis =>
    obtain ⟨first, others⟩ := List.forall_mem_cons.mp named
    cases values with
    | nil => exact .pure ()
    | cons value further =>
      refine (assign_replayed steady first value).bind fun _ => ?_
      exact inductionHypothesis others further

/-- Reading variables from a line of input is replayed name by name. -/
theorem scan_replayed {first : Token} {others : List Token}
    (named : ∀ name ∈ first :: others, pairing.fine name ∧ name.kind = .identifier) :
    Replayed pairing (scan first others)
      (scan (pairing.replace first) (others.map pairing.replace)) := by
  refine (readValues_replayed first).bind fun values => ?_
  rw [← List.map_cons, List.length_map]
  split
  · exact assignEach_replayed steady named values
  · exact .fail (Cause.oneLine_inputArity _ _) (some first)

/-- Declarations of one type are replayed, each initializer in its turn. -/
theorem declareEach_replayed (type : VarType) {names : List Declarator}
    (made : ∀ declarator ∈ names, declarator.MadeOf pairing.fine) :
    Replayed pairing (declareEach type names)
      (declareEach type (names.map (Declarator.mapTokens pairing.replace))) := by
  induction names with
  | nil => exact .pure ()
  | cons declarator rest inductionHypothesis =>
    obtain ⟨⟨named, initialized⟩, others⟩ := List.forall_mem_cons.mp made
    have given : Replayed pairing (declarator.initializer.mapM Expr.eval)
        ((declarator.initializer.map (Expr.mapTokens pairing.replace)).mapM Expr.eval) := by
      cases found : declarator.initializer with
      | none => exact .pure none
      | some expr =>
        exact (expr.eval_replayed steady (initialized expr found)).bind fun value => .pure _
    refine given.bind fun value => (declare_replayed steady named type value).bind fun _ => ?_
    exact inductionHypothesis others

/-- What is printed is the same. -/
theorem print_replayed {expr : Expr} (made : expr.MadeOf pairing.fine) :
    Replayed pairing (print expr) (print (expr.mapTokens pairing.replace)) := by
  refine (expr.eval_replayed steady made).bind fun value => ?_
  rw [Expr.token?_mapTokens]
  refine (printed_replayed expr.token? (some value)).bind fun text => ?_
  exact fun machine => .ok () _

end Run

end Trees

namespace Stmt

open Run

variable {pairing : Pairing}

mutual

/-- A statement of proper tokens and the same statement with these replaced end alike everywhere. -/
theorem exec_replayed (steady : pairing.Steady) (fuel : Nat) :
    ∀ statement : Stmt, statement.MadeOf pairing.fine →
      Replayed pairing (statement.exec fuel) ((statement.mapTokens pairing.replace).exec fuel)
  | .declare type _, made => declareEach_replayed steady type made.2
  | .expression expr, made => (expr.eval_replayed steady made).bind fun _ => .pure ()
  | .print _, made => print_replayed steady made
  | .scan _ _, made => scan_replayed steady made
  | .branch keyword condition thenBranch elseBranch, made => by
    refine (condition.evalCondition_replayed steady made.2.1 keyword).bind fun truth => ?_
    cases truth with
    | true => exact exec_replayed steady fuel thenBranch made.2.2.1.2
    | false => exact execElse_replayed steady fuel elseBranch made.2.2.2
  | .loop keyword condition body, made =>
    .whileLoop (condition.evalCondition_replayed steady made.2.1 keyword)
      (exec_replayed steady fuel body made.2.2.2) fuel
  | .block statements, made => (execEach_replayed steady fuel statements made).inScope

/-- So do the branches of a conditional. -/
theorem execElse_replayed (steady : pairing.Steady) (fuel : Nat) :
    ∀ statement : Option Stmt, ElseMadeOf pairing.fine statement →
      Replayed pairing (execElse fuel statement) (execElse fuel (mapElse pairing.replace statement))
  | none, _ => .pure ()
  | some statement, made => exec_replayed steady fuel statement made.2

/-- So do statements that are run one after the other. -/
theorem execEach_replayed (steady : pairing.Steady) (fuel : Nat) :
    ∀ statements : List Stmt, EachMadeOf pairing.fine statements →
      Replayed pairing (execEach fuel statements)
        (execEach fuel (mapEach pairing.replace statements))
  | [], _ => .pure ()
  | statement :: rest, made =>
    (exec_replayed steady fuel statement made.1).bind fun _ =>
      execEach_replayed steady fuel rest made.2

end

end Stmt

end LineScript
