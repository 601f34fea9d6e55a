/-
Module: LineScript.Proofs.BlamedTokens
Purpose: A rejected program is reported, and no token is blamed twice.
Trusted boundary: none
Main exports: BlamesOnce, blamed_subperm_tokens, program_eq_none_iff, errors_apart,
  Log.rejection_reported
-/
import LineScript.Proofs.NameOrder
import LineScript.Proofs.ParsedTree
import LineScript.Proofs.StaticGate
import Mathlib.Data.List.Perm.Subperm

/-!
A parser gives up at the token that it blames, and recovery passes this token before parsing goes
on. An error that is reported without giving up is at a token already passed, or at one that is
passed next. So every blamed token is passed once for itself, and no token is passed twice. Only the
end of the text is never passed: it can be blamed by a block, by what is around it and by the script.
-/

namespace LineScript

open Parse

/-- The tokens at which errors were reported, but for the end of the text. -/
def blamed (reported : List SyntaxError) : List Token :=
  (reported.map SyntaxError.token).filter fun token => token.kind ≠ .eof

@[simp] theorem blamed_nil : blamed [] = [] := rfl

@[simp] theorem blamed_append (earlier later : List SyntaxError) :
    blamed (earlier ++ later) = blamed earlier ++ blamed later := by
  rw [blamed, List.map_append, List.filter_append]
  rfl

/-- The end of the text does not count. -/
theorem blamed_last {token : Token} (message : String) (last : token.kind = .eof) :
    blamed [⟨token, message⟩] = [] := by
  simp [blamed, last]

theorem blamed_inside {token : Token} (message : String) (inside : token.kind ≠ .eof) :
    blamed [⟨token, message⟩] = [token] := by
  simp [blamed, inside]

/-- One error blames at most its token. -/
theorem blamed_subperm (token : Token) (message : String) :
    (blamed [⟨token, message⟩]).Subperm [token] :=
  List.filter_sublist.subperm

/-! ### Passing over the current token -/

namespace Cursor

/-- Recovery passes the token at which a parser gave up. -/
theorem moved_synchronize_current {cursor : Cursor} (closed : cursor.Closed)
    (inside : cursor.current.kind ≠ .eof) :
    ∃ more, cursor.Moved (cursor.current :: more) cursor.synchronize := by
  obtain ⟨more, moved⟩ := exists_moved_passUntilResumption cursor.current cursor.advance.before
    cursor.advance.current cursor.advance.after
  exact ⟨more, (moved_advance closed inside).trans moved⟩

/-- So does passing over the rest of a line that is not empty. -/
theorem moved_skipLine_current {cursor : Cursor} (closed : cursor.Closed)
    (inside : ¬ cursor.current.kind.EndsLine) :
    ∃ more, cursor.Moved (cursor.current :: more) cursor.skipLine := by
  have notLast : cursor.current.kind ≠ .eof := fun last => inside (.inr last)
  have notNewline : cursor.current.kind ≠ .newline := fun newline => inside (.inl newline)
  have nonempty := closed.after_ne_nil notLast
  obtain ⟨before, current, after⟩ := cursor
  obtain ⟨next, rest, rfl⟩ := List.exists_cons_of_ne_nil nonempty
  let sort : TokenKind → Bool := fun kind => kind != .newline && kind != .eof
  have passes : passWhile sort before current (next :: rest) =
      passWhile sort (current :: before) next rest := by
    have listed : sort current.kind = true := by simp [sort, notNewline, notLast]
    rw [passWhile, if_pos listed]
  have first : (⟨before, current, next :: rest⟩ : Cursor).Moved [current]
      ⟨current :: before, next, rest⟩ := ⟨rfl, rfl⟩
  obtain ⟨more, moved⟩ := exists_moved_passWhile sort (current :: before) next rest
  have lineEnd := first.trans moved
  rw [← passes] at lineEnd
  unfold skipLine
  dsimp only
  split
  · obtain ⟨last, advanced⟩ := exists_moved_advance (passWhile sort before current (next :: rest))
    exact ⟨_, lineEnd.trans advanced⟩
  · exact ⟨_, lineEnd⟩

end Cursor

/-! ### Parsers that blame no token twice -/

/-- Where a parser gave up: the error reported last is at the token where it stopped, and the tokens
blamed before have been passed, each once for itself. -/
def Blaming (passed : List Token) (stopped : Token) (reported : List SyntaxError) : Prop :=
  ∃ earlier message, reported = earlier ++ [⟨stopped, message⟩] ∧ (blamed earlier).Subperm passed

/-- Giving up where it starts, a parser blames that token alone. -/
theorem blaming_at (stopped : Token) (message : String) : Blaming [] stopped [⟨stopped, message⟩] :=
  ⟨[], message, rfl, List.nil_subperm⟩

/-- What was blamed before has been passed, so that a later error finds its own token. -/
theorem Blaming.behind {front passed : List Token} {stopped : Token}
    {earlier reported : List SyntaxError} (before : (blamed earlier).Subperm front)
    (blaming : Blaming passed stopped reported) :
    Blaming (front ++ passed) stopped (earlier ++ reported) := by
  obtain ⟨between, message, rfl, once⟩ := blaming
  refine ⟨earlier ++ between, message, (List.append_assoc _ _ _).symm, ?_⟩
  rw [blamed_append]
  exact before.append once

namespace Parse

variable {α β : Type}

/-- The tokens that the parser blames are passed by it, each once for itself. -/
def BlamesOnce (parser : Parse α) : Prop :=
  Walks parser (fun _ passed reported => (blamed reported).Subperm passed) Blaming

/-- Where no token is passed, none is blamed. -/
theorem BlamesOnce.pure (value : α) : BlamesOnce (Pure.pure value : Parse α) :=
  Walks.pure List.nil_subperm

/-- Two parsers that blame each token once do so one after the other: what the second one blames
lies behind what the first one passed. -/
theorem BlamesOnce.bind {parser : Parse α} {next : α → Parse β} (first : BlamesOnce parser)
    (second : ∀ value, BlamesOnce (next value)) : BlamesOnce (parser >>= next) := by
  apply Walks.bind first
  intro value front earlier before
  apply (second value).weaken
  · intro result passed reported behind
    rw [blamed_append]
    exact before.append behind
  · intro passed stopped reported blaming
    exact blaming.behind before

/-- A parser that reports nothing unless it gives up. -/
theorem BlamesOnce.of_quiet {parser : Parse α} {found : α → List Token → List SyntaxError → Prop}
    (walks : Walks parser found Blaming)
    (quiet : ∀ value passed reported, found value passed reported → reported = []) :
    BlamesOnce parser := by
  apply walks.weaken
  · intro value passed reported holds
    rw [quiet value passed reported holds]
    exact List.nil_subperm
  · intro passed stopped reported blaming
    exact blaming

/-- To fail is to blame the token at the cursor, which is not passed. -/
theorem fail_blamesOnce (message : String) : BlamesOnce (fail message : Parse α) :=
  fail_walks message fun stopped => blaming_at stopped message

/-- A token that is missing is blamed on the one found in its place. -/
theorem expect_blamesOnce {kind : TokenKind} (message : String) (inside : kind ≠ .eof) :
    BlamesOnce (expect kind message) :=
  .of_quiet (expect_walks message inside fun stopped => blaming_at stopped message)
    fun _ _ _ shape => shape.2.2

theorem expectAll_blamesOnce (message : String) {kinds : List TokenKind} (inside : .eof ∉ kinds) :
    BlamesOnce (expectAll message kinds) := by
  induction kinds with
  | nil => exact BlamesOnce.pure ()
  | cons kind rest inductionHypothesis =>
    apply (expect_blamesOnce message (Ne.symm (List.ne_of_not_mem_cons inside))).bind
    intro _
    exact inductionHypothesis (List.not_mem_of_not_mem_cons inside)

/-- Looking for a token never reports one that is missing. -/
theorem accept_blamesOnce {kinds : List TokenKind} (inside : .eof ∉ kinds) :
    BlamesOnce (accept kinds) :=
  .of_quiet (accept_walks inside) fun _ _ _ shape => shape.1

theorem endLine_blamesOnce (message : String) : BlamesOnce (endLine message) :=
  (expect_blamesOnce message (by decide)).bind fun _ => BlamesOnce.pure ()

/-- Blank lines are passed without a report. -/
theorem skipNewlines_blamesOnce : BlamesOnce skipNewlines :=
  .of_quiet skipNewlines_walks fun _ _ _ quiet => quiet

/-- Passing a token that does not end the text, and going on. -/
theorem BlamesOnce.passing {start : Progress} {next : Parse α} (closed : start.cursor.Closed)
    (inside : start.cursor.current.kind ≠ .eof) (blames : BlamesOnce next) :
    WalksFrom start (do let _ ← advance; next)
      (fun _ passed reported => (blamed reported).Subperm passed) Blaming := by
  apply WalksFrom.passing closed inside
  apply blames.weaken
  · intro value passed reported once
    exact once.cons_right _
  · intro passed stopped reported blaming
    have quiet : (blamed []).Subperm [start.cursor.current] := List.nil_subperm
    exact blaming.behind quiet

/-- Behind a parser that gave up, recovery passes the token blamed last. -/
theorem recover_blamesOnce {item : Parse α} (blames : BlamesOnce item) :
    BlamesOnce (recover item) := by
  intro start closed
  have ending := blames start closed
  unfold WalksFrom recover at *
  cases shape : item start with
  | ok value reached =>
    rw [shape] at ending
    exact ending
  | error error reached =>
    rw [shape] at ending
    obtain ⟨passed, _, walk, earlier, message, rfl, once⟩ := ending
    have left := walk.moved.closed closed
    by_cases last : reached.cursor.current.kind = .eof
    · obtain ⟨more, moved⟩ := reached.cursor.exists_moved_synchronize
      refine ⟨passed ++ more, _, ⟨walk.moved.trans moved, walk.errors⟩, ?_⟩
      show (blamed (earlier ++ [⟨reached.cursor.current, message⟩])).Subperm _
      rw [blamed_append, blamed_last message last]
      exact once.append List.nil_subperm
    · obtain ⟨more, moved⟩ := Cursor.moved_synchronize_current left last
      refine ⟨passed ++ reached.cursor.current :: more, _,
        ⟨walk.moved.trans moved, walk.errors⟩, ?_⟩
      show (blamed (earlier ++ [⟨reached.cursor.current, message⟩])).Subperm _
      rw [blamed_append, blamed_inside message last]
      exact once.append (List.singleton_subperm_iff.mpr List.mem_cons_self)

end Parse

/-! ### Expressions -/

namespace Expr

section Levels

variable {factor : Parse Expr} (factorBlames : BlamesOnce factor)

include factorBlames

/-- The operands of a chain blame different tokens, since each is behind the ones before. -/
theorem chainFrom_blamesOnce {operators : List TokenKind} (inside : .eof ∉ operators)
    (node : Expr → Token → Expr → Expr) (bound : Nat) (left : Expr) :
    BlamesOnce (chainFrom operators node factor bound left) := by
  induction bound generalizing left with
  | zero => exact BlamesOnce.pure left
  | succ bound inductionHypothesis =>
    apply (accept_blamesOnce inside).bind
    intro found
    cases found with
    | none => exact BlamesOnce.pure left
    | some operator => exact factorBlames.bind fun right => inductionHypothesis _

theorem chain_blamesOnce {operators : List TokenKind} {node : Expr → Token → Expr → Expr}
    (inside : .eof ∉ operators) : BlamesOnce (chain operators node factor) := by
  apply factorBlames.bind
  intro first
  apply Walks.counting
  intro bound
  exact chainFrom_blamesOnce factorBlames inside node bound first

/-- Every level of infix operators blames each token once if the factors do. -/
theorem disjunction_blamesOnce : BlamesOnce (disjunction factor) := by
  have products : BlamesOnce (product factor) := chain_blamesOnce factorBlames (by decide)
  have sums : BlamesOnce (sum factor) := chain_blamesOnce products (by decide)
  have comparisons : BlamesOnce (comparison factor) := chain_blamesOnce sums (by decide)
  have equalities : BlamesOnce (equality factor) := chain_blamesOnce comparisons (by decide)
  have conjunctions : BlamesOnce (conjunction factor) := chain_blamesOnce equalities (by decide)
  exact chain_blamesOnce conjunctions (by decide)

/-- A target that is no variable is blamed on its equals sign, behind the expression and in front of
the value. -/
theorem assignment_blamesOnce (bound : Nat) : BlamesOnce (assignment factor bound) := by
  have targets := disjunction_blamesOnce factorBlames
  induction bound with
  | zero => exact targets
  | succ bound inductionHypothesis =>
    apply targets.bind
    intro target
    -- A sign that is blamed late was passed in front of the value, and not blamed for that.
    apply Walks.bind (accept_walks (by decide))
    rintro found front earlier ⟨rfl, shape⟩
    cases found with
    | none =>
      subst shape
      exact Walks.pure List.nil_subperm
    | some sign =>
      obtain ⟨_, rfl⟩ := shape
      have valueWalks : Walks (assignment factor bound)
          (fun _ passed reported => (blamed reported).Subperm passed)
          fun passed stopped reported => Blaming ([sign] ++ passed) stopped ([] ++ reported) := by
        apply inductionHypothesis.weaken
        · intro value passed reported once
          exact once
        · intro passed stopped reported blaming
          exact blaming.behind List.nil_subperm
      apply valueWalks.bind
      intro value behind later once
      cases target with
      | reference name =>
        apply Walks.pure
        simpa using once.cons_right sign
      | literal | assign | unary | binary | logical | group =>
        apply Walks.bind (report_walks sign _)
        rintro _ _ _ ⟨rfl, rfl⟩
        apply Walks.pure
        have both := once.append (blamed_subperm sign "Invalid assignment target")
        simpa using both.trans List.perm_append_comm.subperm

end Levels

/-- A factor blames each token once. Where nothing can start a factor, the token there is blamed and
not passed. -/
theorem factor_blamesOnce (bound : Nat) : BlamesOnce (factor bound) := by
  -- The bound falls with every sign and every opening parenthesis.
  induction bound with
  | zero => exact fail_blamesOnce _
  | succ bound inductionHypothesis =>
    apply Walks.looking
    intro start closed
    split
    case h_1 _ kind | h_2 _ kind | h_3 _ kind =>
      apply BlamesOnce.passing closed (by rw [kind]; decide)
      exact inductionHypothesis.bind fun operand => BlamesOnce.pure _
    case h_4 _ kind | h_5 _ kind | h_6 _ kind | h_7 _ kind | h_8 _ kind | h_9 _ kind |
        h_10 _ kind | h_11 _ kind | h_12 _ kind =>
      apply BlamesOnce.passing closed (by rw [kind]; decide)
      exact BlamesOnce.pure _
    case h_13 _ kind =>
      apply BlamesOnce.passing closed (by rw [kind]; decide)
      apply (assignment_blamesOnce inductionHypothesis bound).bind
      intro inner
      exact (expect_blamesOnce _ (by decide)).bind fun closing => BlamesOnce.pure _
    case h_14 => exact fail_blamesOnce _ start closed

/-- An expression blames each token at most once, however deep it is. -/
theorem parse_blamesOnce : BlamesOnce parse :=
  Walks.counting fun bound => assignment_blamesOnce (factor_blamesOnce bound) bound

end Expr

/-! ### Statements -/

namespace Stmt

theorem moreNames_blamesOnce (bound : Nat) : BlamesOnce (moreNames bound) := by
  induction bound with
  | zero => exact BlamesOnce.pure []
  | succ bound inductionHypothesis =>
    apply (accept_blamesOnce (by decide)).bind
    intro found
    cases found with
    | none => exact BlamesOnce.pure []
    | some comma =>
      apply (expect_blamesOnce _ (by decide)).bind
      intro name
      exact inductionHypothesis.bind fun rest => BlamesOnce.pure _

theorem declarator_blamesOnce : BlamesOnce declarator := by
  apply (expect_blamesOnce _ (by decide)).bind
  intro name
  apply (accept_blamesOnce (by decide)).bind
  intro found
  cases found with
  | none => exact BlamesOnce.pure _
  | some sign => exact Expr.parse_blamesOnce.bind fun expr => BlamesOnce.pure _

theorem moreDeclarators_blamesOnce (bound : Nat) : BlamesOnce (moreDeclarators bound) := by
  induction bound with
  | zero => exact BlamesOnce.pure []
  | succ bound inductionHypothesis =>
    apply (accept_blamesOnce (by decide)).bind
    intro found
    cases found with
    | none => exact BlamesOnce.pure []
    | some comma =>
      apply declarator_blamesOnce.bind
      intro next
      exact inductionHypothesis.bind fun rest => BlamesOnce.pure _

/-- A word that is no type is blamed on itself. -/
theorem typeName_blamesOnce : BlamesOnce typeName := by
  apply Walks.looking
  intro start closed
  split
  case h_1 type kind => exact BlamesOnce.passing closed (by simp [kind]) (BlamesOnce.pure type)
  case h_2 => exact fail_blamesOnce _ start closed

theorem declaration_blamesOnce : BlamesOnce declaration := by
  apply (expect_blamesOnce _ (by decide)).bind
  intro keyword
  apply typeName_blamesOnce.bind
  intro type
  apply declarator_blamesOnce.bind
  intro first
  apply Walks.counting
  intro bound
  apply (moreDeclarators_blamesOnce bound).bind
  intro others
  exact (endLine_blamesOnce _).bind fun _ => BlamesOnce.pure _

theorem printing_blamesOnce : BlamesOnce printing := by
  apply (expect_blamesOnce _ (by decide)).bind
  intro keyword
  apply (expect_blamesOnce _ (by decide)).bind
  intro colon
  apply Expr.parse_blamesOnce.bind
  intro expr
  exact (endLine_blamesOnce _).bind fun _ => BlamesOnce.pure _

theorem scanning_blamesOnce : BlamesOnce scanning := by
  apply (expect_blamesOnce _ (by decide)).bind
  intro keyword
  apply (expect_blamesOnce _ (by decide)).bind
  intro colon
  apply (expect_blamesOnce _ (by decide)).bind
  intro first
  apply Walks.counting
  intro bound
  apply (moreNames_blamesOnce bound).bind
  intro others
  exact (endLine_blamesOnce _).bind fun _ => BlamesOnce.pure _

theorem expressionLine_blamesOnce : BlamesOnce expressionLine := by
  apply Expr.parse_blamesOnce.bind
  intro expr
  exact (endLine_blamesOnce _).bind fun _ => BlamesOnce.pure _

theorem condition_blamesOnce (header : String) : BlamesOnce (condition header) := by
  apply (expect_blamesOnce _ (by decide)).bind
  intro opening
  apply Expr.parse_blamesOnce.bind
  intro expr
  apply (expect_blamesOnce _ (by decide)).bind
  intro closing
  exact (endLine_blamesOnce _).bind fun _ => BlamesOnce.pure _

/-- A missing clause is no error. -/
theorem clause_blamesOnce (closer : TokenKind) : BlamesOnce (clause closer) := by
  apply Walks.checking
  intro closed
  cases closed with
  | true => exact BlamesOnce.pure _
  | false => exact Expr.parse_blamesOnce.bind fun expr => BlamesOnce.pure _

/-! #### Runs of statements and the forms that hold them -/

section Nested

variable {item : Parse Stmt} (itemBlames : BlamesOnce item)

include itemBlames

/-- A stray `END` is blamed while it is the current token, and then passed with its line. -/
theorem round_blamesOnce : BlamesOnce (round item) := by
  intro start closed
  by_cases stray : start.cursor.current.kind = .endWord
  · obtain ⟨more, moved⟩ := Cursor.moved_skipLine_current closed (by rw [stray]; decide)
    have passes : round item start = .ok none
        ({ start with cursor := start.cursor.skipLine }.reporting
          ⟨start.cursor.current, "Unexpected 'END' without a matching block"⟩) := by
      simp [round, Action.bind_apply, check, stray, current, report, skipLine]
      rfl
    unfold WalksFrom
    rw [passes]
    refine ⟨_, _, ⟨moved, rfl⟩, ?_⟩
    have once := blamed_subperm start.cursor.current "Unexpected 'END' without a matching block"
    exact once.trans (List.singleton_subperm_iff.mpr List.mem_cons_self)
  · have tries : round item start = recover item start := by
      simp [round, Action.bind_apply, check, stray]
    have recovers := recover_blamesOnce itemBlames start closed
    unfold WalksFrom at recovers ⊢
    rwa [tries]

/-- A run of statements blames each token once: the recovery behind a broken statement passes at
least the token that was blamed, which the next turn could blame again otherwise. -/
theorem runFrom_blamesOnce (nesting : Nesting) (bound : Nat) :
    BlamesOnce (runFrom nesting item bound) := by
  induction bound with
  | zero => exact BlamesOnce.pure []
  | succ bound inductionHypothesis =>
    have looks : BlamesOnce (atEnd nesting) :=
      fun start _ => ⟨[], [], Progress.Walk.refl start, List.nil_subperm⟩
    apply looks.bind
    intro ended
    cases ended with
    | true => exact BlamesOnce.pure []
    | false =>
      apply (round_blamesOnce itemBlames).bind
      intro found
      apply skipNewlines_blamesOnce.bind
      intro _
      exact inductionHypothesis.bind fun rest => BlamesOnce.pure _

theorem run_blamesOnce (nesting : Nesting) : BlamesOnce (run nesting item) :=
  skipNewlines_blamesOnce.bind fun _ =>
    Walks.counting fun bound => runFrom_blamesOnce itemBlames nesting bound

/-- The words around a block are expected one by one, each blamed on the token in its place. -/
theorem blockOf_blamesOnce {form : TokenKind} (inside : form ≠ .eof) :
    BlamesOnce (blockOf item form) := by
  apply skipNewlines_blamesOnce.bind
  intro _
  apply (expect_blamesOnce _ (by decide)).bind
  intro opening
  apply (expect_blamesOnce _ inside).bind
  intro opened
  apply (endLine_blamesOnce _).bind
  intro _
  apply (run_blamesOnce itemBlames .inBlock).bind
  intro statements
  apply (expect_blamesOnce _ (by decide)).bind
  intro closing
  exact (expect_blamesOnce _ inside).bind fun _ => BlamesOnce.pure _

/-- A conditional blames each token once, its further branches included. -/
theorem conditional_blamesOnce (bound : Nat) : BlamesOnce (conditional item bound) := by
  have blocks : BlamesOnce (blockOf item .ifWord) := blockOf_blamesOnce itemBlames (by decide)
  -- Every further branch has one bound less.
  induction bound with
  | zero => exact fail_blamesOnce _
  | succ bound inductionHypothesis =>
    apply (expect_blamesOnce _ (by decide)).bind
    intro keyword
    apply (condition_blamesOnce _).bind
    intro test
    apply blocks.bind
    intro thenBranch
    apply (endLine_blamesOnce _).bind
    intro _
    apply skipNewlines_blamesOnce.bind
    intro _
    apply (accept_blamesOnce (by decide)).bind
    intro found
    cases found with
    | none => exact BlamesOnce.pure _
    | some word =>
      apply Walks.checking
      intro again
      cases again with
      | true => exact inductionHypothesis.bind fun elseBranch => BlamesOnce.pure _
      | false =>
        apply (endLine_blamesOnce _).bind
        intro _
        apply blocks.bind
        intro elseBranch
        exact (endLine_blamesOnce _).bind fun _ => BlamesOnce.pure _

theorem repetition_blamesOnce : BlamesOnce (repetition item) := by
  apply (expect_blamesOnce _ (by decide)).bind
  intro keyword
  apply (expect_blamesOnce _ (by decide)).bind
  intro word
  apply (condition_blamesOnce _).bind
  intro test
  apply (blockOf_blamesOnce itemBlames (by decide)).bind
  intro body
  exact (endLine_blamesOnce _).bind fun _ => BlamesOnce.pure _

theorem counting_blamesOnce : BlamesOnce (counting item) := by
  apply (expect_blamesOnce _ (by decide)).bind
  intro keyword
  apply (expect_blamesOnce _ (by decide)).bind
  intro opening
  apply (clause_blamesOnce _).bind
  intro first
  apply (expect_blamesOnce _ (by decide)).bind
  intro _
  apply (clause_blamesOnce _).bind
  intro test
  apply (expect_blamesOnce _ (by decide)).bind
  intro _
  apply (clause_blamesOnce _).bind
  intro last
  apply (expect_blamesOnce _ (by decide)).bind
  intro closing
  apply (endLine_blamesOnce _).bind
  intro _
  apply (blockOf_blamesOnce itemBlames (by decide)).bind
  intro body
  exact (endLine_blamesOnce _).bind fun _ => BlamesOnce.pure _

/-- The first token decides on the form; an expression is tried where no other form starts. -/
theorem statementOver_blamesOnce : BlamesOnce (statementOver item) := by
  apply Walks.looking
  intro start closed
  split
  · exact fail_blamesOnce _ start closed
  · exact printing_blamesOnce start closed
  · exact scanning_blamesOnce start closed
  · exact conditional_blamesOnce itemBlames _ start closed
  · exact repetition_blamesOnce itemBlames start closed
  · exact counting_blamesOnce itemBlames start closed
  · exact expressionLine_blamesOnce start closed

end Nested

/-- A statement blames each token once, with all that nests in its blocks. -/
theorem statement_blamesOnce (bound : Nat) : BlamesOnce (statement bound) := by
  -- The statements inside a statement are parsed with one bound less.
  induction bound with
  | zero => exact fail_blamesOnce _
  | succ bound inductionHypothesis => exact statementOver_blamesOnce inductionHypothesis

theorem parseRun_blamesOnce (nesting : Nesting) : BlamesOnce (parseRun nesting) :=
  Walks.counting fun bound => run_blamesOnce (statement_blamesOnce bound) nesting

end Stmt

/-! ### Programs -/

namespace Program

theorem header_blamesOnce : BlamesOnce header := by
  apply skipNewlines_blamesOnce.bind
  intro _
  apply (expectAll_blamesOnce _ (by decide)).bind
  intro _
  apply skipNewlines_blamesOnce.bind
  intro _
  exact expectAll_blamesOnce _ (by decide)

/-- Declaration after declaration, each with its own recovery. -/
theorem declarationsFrom_blamesOnce (bound : Nat) : BlamesOnce (declarationsFrom bound) := by
  induction bound with
  | zero => exact BlamesOnce.pure []
  | succ bound inductionHypothesis =>
    apply Walks.checking
    intro more
    cases more with
    | false => exact BlamesOnce.pure []
    | true =>
      apply (recover_blamesOnce Stmt.declaration_blamesOnce).bind
      intro found
      apply skipNewlines_blamesOnce.bind
      intro _
      exact inductionHypothesis.bind fun rest => BlamesOnce.pure _

theorem declarations_blamesOnce : BlamesOnce declarations :=
  skipNewlines_blamesOnce.bind fun _ => Walks.counting declarationsFrom_blamesOnce

/-- After the closing words, a token too many is blamed and not passed. -/
theorem footer_blamesOnce : BlamesOnce footer := by
  apply (expectAll_blamesOnce _ (by decide)).bind
  intro _
  apply skipNewlines_blamesOnce.bind
  intro _
  apply Walks.checking
  intro ended
  cases ended with
  | true => exact BlamesOnce.pure ()
  | false => exact fail_blamesOnce _

/-- The parts of a program pass different tokens, so that a whole program blames no token twice. -/
theorem statements_blamesOnce : BlamesOnce statements := by
  apply header_blamesOnce.bind
  intro _
  apply declarations_blamesOnce.bind
  intro first
  apply (Stmt.parseRun_blamesOnce .topLevel).bind
  intro rest
  exact footer_blamesOnce.bind fun _ => BlamesOnce.pure _

/-- All blamed tokens but the end of the text are different tokens of the program. -/
theorem blamed_subperm_tokens {tokens : List Token} (nonempty : tokens ≠ [])
    (closed : (Cursor.ofTokens tokens).Closed) :
    (blamed (parse tokens).errors).Subperm tokens := by
  have ahead := Cursor.ahead_ofTokens nonempty
  have ending := statements_blamesOnce (Progress.ofTokens tokens) closed
  unfold WalksFrom at ending
  rw [parse_eq]
  cases shape : statements (Progress.ofTokens tokens) with
  | ok found reached =>
    rw [shape] at ending
    obtain ⟨passed, reported, walk, once⟩ := ending
    have whole : tokens = passed ++ reached.cursor.ahead := ahead.symm.trans walk.moved.ahead
    dsimp only
    rw [walk.errors, whole]
    exact once.trans (List.sublist_append_left passed _).subperm
  | error error reached =>
    rw [shape] at ending
    obtain ⟨passed, _, walk, earlier, message, rfl, once⟩ := ending
    have whole : tokens = passed ++ reached.cursor.ahead := ahead.symm.trans walk.moved.ahead
    have here : (blamed [⟨reached.cursor.current, message⟩]).Subperm reached.cursor.ahead :=
      (blamed_subperm _ message).trans (List.singleton_subperm_iff.mpr List.mem_cons_self)
    dsimp only
    rw [walk.errors, whole, Progress.ofTokens, List.nil_append, blamed_append]
    exact once.append here

/-- A program is rejected exactly if an error was reported. -/
theorem program_eq_none_iff {tokens : List Token} (closed : (Cursor.ofTokens tokens).Closed) :
    (parse tokens).program = none ↔ (parse tokens).errors ≠ [] := by
  have ending := statements_blamesOnce (Progress.ofTokens tokens) closed
  unfold WalksFrom at ending
  rw [parse_eq]
  cases shape : statements (Progress.ofTokens tokens) with
  | ok found reached => cases errors : reached.errors <;> simp
  | error error reached =>
    rw [shape] at ending
    obtain ⟨passed, _, walk, earlier, message, rfl, _⟩ := ending
    simp [walk.errors]

/-- Two errors stand at different places, unless one of them is at the end of the text. -/
theorem errors_apart (source : String) :
    (parse (lex source).tokens).errors.Pairwise fun one two =>
      one.token.kind ≠ .eof → two.token.kind ≠ .eof →
        one.token.position ≠ two.token.position := by
  have closed := lex_closed source
  obtain ⟨ordered, rearranged, sublist⟩ := blamed_subperm_tokens (lex_tokens_ne_nil source) closed
  have apart : ordered.Pairwise fun one two => one.position ≠ two.position :=
    ((lex_sorted source).sublist sublist).imp Token.Precedes.position_ne
  have places := (rearranged.pairwise_iff fun different => Ne.symm different).mp apart
  rw [blamed, List.pairwise_filter, List.pairwise_map] at places
  simpa using places

end Program

/-- Whatever a log already holds, parsing a text ends and adds reports of syntax errors, no others.
The text is rejected exactly if something is added; so an error that ends parsing is always among
the reports. No two of them are at the same place, unless it is the end of the text. -/
theorem Log.rejection_reported (source : String) (log : Log) :
    let parsed := Program.parse (lex source).tokens
    ∃ added, (parsed.errors.foldl addSyntactic log).reports = log.reports ++ added ∧
      (parsed.program = none ↔ added ≠ []) ∧
      (∀ report ∈ added, report.kind = .grammatical) ∧
      added.Pairwise fun one two => one.position = two.position →
        ∃ last ∈ (lex source).tokens, last.kind = .eof ∧ one.position = last.position := by
  intro parsed
  refine ⟨parsed.errors.map SyntaxError.report, reports_foldl addSyntactic_reports _ log, ?_, ?_, ?_⟩
  · rw [ne_eq, List.map_eq_nil_iff]
    exact Program.program_eq_none_iff (lex_closed source)
  · intro report member
    obtain ⟨error, _, rfl⟩ := List.mem_map.mp member
    rfl
  · have placed : ∀ error ∈ parsed.errors, error.token ∈ (lex source).tokens :=
      fun _ => Program.token_mem_of_mem_errors (lex_tokens_ne_nil source)
    rw [List.pairwise_map]
    refine (Program.errors_apart source).imp_of_mem fun {one two} oneListed twoListed apart same => ?_
    by_cases first : one.token.kind = .eof
    · exact ⟨_, placed one oneListed, first, rfl⟩
    by_cases second : two.token.kind = .eof
    · exact ⟨_, placed two twoListed, second, same⟩
    · exact absurd same (apart first second)

/-- A program with a colon missing on one line and a parenthesis on the next. -/
def twiceBroken : String :=
  "SCRIPT AREA\nSTART SCRIPT\nPRINT 1\nPRINT: (2\nEND SCRIPT\n"

/-- It is rejected with one report for each of the lines, and neither is at the end of the text. -/
theorem twiceBroken_reported :
    let parsed := Program.parse (lex twiceBroken).tokens
    let log := Log.empty.addRuntime ⟨.divisionByZero, none⟩
    let colon : Report := ⟨.grammatical, "Expected ':' after 'PRINT'", ⟨3, 7⟩⟩
    let parenthesis : Report := ⟨.grammatical, "Expected ')' after expression", ⟨4, 10⟩⟩
    (parsed.errors.foldl Log.addSyntactic log).reports = log.reports ++ [colon, parenthesis] ∧
      parsed.program = none ∧
      (colon.position = parenthesis.position →
        ∃ last ∈ (lex twiceBroken).tokens, last.kind = .eof ∧ colon.position = last.position) := by
  intro parsed log colon parenthesis
  obtain ⟨added, reports, rejected, _, apart⟩ := Log.rejection_reported twiceBroken log
  have computed : (parsed.errors.foldl Log.addSyntactic log).reports =
      log.reports ++ [colon, parenthesis] := by
    decide +kernel
  obtain rfl : added = [colon, parenthesis] :=
    List.append_cancel_left (reports.symm.trans computed)
  exact ⟨computed, rejected.mpr (List.cons_ne_nil _ _), List.rel_of_pairwise_cons apart (by simp)⟩

end LineScript
