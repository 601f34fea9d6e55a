/-
Module: LineScript.Proofs.GrammarSoundness
Purpose: The parser passes nothing without a report that the grammar does not derive.
Trusted boundary: none
Main exports: parse_sound, statement_sound, reads_program, derives_of_parse
-/
import LineScript.Program
import LineScript.Proofs.ParserLogic

namespace LineScript

open Grammar Parse

/-! ### Expressions

An assignment needs a bare variable on its left, and the parser finds out by looking at the tree of
the left side. So each level is proved with a second fact beside the phrase it passes: a tree that
is a bare variable was a single identifier. -/

namespace Expr

/-- What a level of expressions passes, and what a bare variable came from. -/
def Passed (phrase : Phrase) (start : List TokenKind) (expr : Expr) (rest : List TokenKind) : Prop :=
  Reads phrase start rest ∧ ∀ name, expr = .reference name → start = .identifier :: rest

/-- The loop of a level, behind an operand already read, reads the rest of a chain of the
grammar. -/
theorem chainFrom_ensures {operators : List TokenKind} {node : Expr → Token → Expr → Expr}
    {operand : Parse Expr} {symbol : Symbol} (inside : .eof ∉ operators)
    (compound : ∀ left operator right name, node left operator right ≠ .reference name)
    (operandEnsures : Ensures operand (Passed (.part symbol))) (bound : Nat) (left : Expr) :
    Ensures (chainFrom operators node operand bound left) fun start expr rest =>
      Reads (.many (.all [.oneOf operators, .part symbol])) start rest ∧
        ∀ name, expr = .reference name → expr = left ∧ start = rest := by
  induction bound generalizing left with
  | zero => exact Ensures.pure fun kinds => ⟨Reads.many_nil kinds, fun _ _ => ⟨rfl, rfl⟩⟩
  | succ bound inductionHypothesis =>
    refine (accept_ensures inside).bind fun found => ?_
    cases found with
    | none =>
      apply Ensures.pure
      intro kinds start same
      subst same
      exact ⟨Reads.many_nil kinds, fun _ _ => ⟨rfl, rfl⟩⟩
    | some operator =>
      refine operandEnsures.bind fun right => (inductionHypothesis _).weaken ?_
      intro behind expr rest tail middle passed start accepted
      constructor
      · have head : Reads (.all [.oneOf operators, .part symbol]) start behind := by
          rw [reads_all_cons]
          refine ⟨middle, reads_oneOf.mpr ⟨operator.kind, accepted⟩, ?_⟩
          exact reads_all_cons.mpr ⟨behind, passed.1, reads_all_nil.mpr rfl⟩
        exact Reads.many_cons head tail.1
      · intro name bare
        have built := (tail.2 name bare).1
        exact absurd (built.symm.trans bare) (compound left operator right name)

/-- A level passes a chain of operands and operators, given that its operand passes one operand. -/
theorem chain_ensures {operators : List TokenKind} {node : Expr → Token → Expr → Expr}
    {operand : Parse Expr} {symbol : Symbol} (inside : .eof ∉ operators)
    (compound : ∀ left operator right name, node left operator right ≠ .reference name)
    (operandEnsures : Ensures operand (Passed (.part symbol))) :
    Ensures (chain operators node operand) (Passed (.chain operators symbol)) := by
  refine operandEnsures.bind fun first => remaining_ensures.bind fun bound =>
    (chainFrom_ensures inside compound operandEnsures bound first).weaken ?_
  intro counted expr rest tail middle same start head
  obtain ⟨rfl, _⟩ := same
  constructor
  · rw [Phrase.chain, reads_all_cons]
    exact ⟨counted, head.1, reads_all_cons.mpr ⟨rest, tail.1, reads_all_nil.mpr rfl⟩⟩
  · intro name bare
    obtain ⟨sameTree, nothingPassed⟩ := tail.2 name bare
    rw [head.2 name (sameTree ▸ bare), nothingPassed]

/-- A level passes what its production says. -/
theorem level_ensures {parser : Parse Expr} {symbol : Symbol}
    (ensures : Ensures parser (Passed (rule symbol))) :
    Ensures parser (Passed (.part symbol)) := by
  apply ensures.weaken
  intro start expr rest passed
  exact ⟨reads_part.mpr passed.1, passed.2⟩

section Levels

variable {factor : Parse Expr} (factorEnsures : Ensures factor (Passed (.part .factor)))

include factorEnsures

theorem product_ensures : Ensures (product factor) (Passed (.part .product)) :=
  level_ensures (chain_ensures (by decide) (by simp) factorEnsures)

theorem sum_ensures : Ensures (sum factor) (Passed (.part .sum)) :=
  level_ensures (chain_ensures (by decide) (by simp) (product_ensures factorEnsures))

theorem comparison_ensures : Ensures (comparison factor) (Passed (.part .comparison)) :=
  level_ensures (chain_ensures (by decide) (by simp) (sum_ensures factorEnsures))

theorem equality_ensures : Ensures (equality factor) (Passed (.part .equality)) :=
  level_ensures (chain_ensures (by decide) (by simp) (comparison_ensures factorEnsures))

theorem conjunction_ensures : Ensures (conjunction factor) (Passed (.part .conjunction)) :=
  level_ensures (chain_ensures (by decide) (by simp) (equality_ensures factorEnsures))

theorem disjunction_ensures : Ensures (disjunction factor) (Passed (.part .disjunction)) :=
  level_ensures (chain_ensures (by decide) (by simp) (conjunction_ensures factorEnsures))

/-- An expression without assignment, on the top level of the ladder, is one of the grammar. -/
theorem disjunction_sound : Sound (disjunction factor) (.part .expression) := by
  apply (disjunction_ensures factorEnsures).weaken
  intro start expr rest passed
  rw [reads_part, rule, reads_any]
  exact ⟨.part .disjunction, by simp, passed.1⟩

/-- What is parsed as an assignment is an expression of the grammar. -/
theorem assignment_sound (bound : Nat) : Sound (assignment factor bound) (.part .expression) := by
  -- The value of an assignment is parsed with one bound less, and may be an assignment again.
  induction bound with
  | zero => exact disjunction_sound factorEnsures
  | succ bound inductionHypothesis =>
    refine (disjunction_ensures factorEnsures).bind fun target =>
      (accept_ensures (by decide)).bind fun found => ?_
    cases found with
    | none =>
      apply Ensures.pure
      intro kinds middle same start passed
      subst same
      rw [reads_part, rule, reads_any]
      exact ⟨.part .disjunction, by simp, passed.1⟩
    | some equals =>
      refine Ensures.bind inductionHypothesis fun value => ?_
      cases target with
      | reference name =>
        apply Ensures.pure
        intro rest behind reads middle accepted start passed
        obtain ⟨listed, rfl⟩ := accepted
        have sign : equals.kind = .equal := by simpa using listed
        rw [passed.2 name rfl, sign, reads_part, rule, reads_any]
        refine ⟨.all [.word .identifier, .word .equal, .part .expression], by simp, ?_⟩
        simpa using reads
      | literal | assign | unary | binary | logical | group =>
        exact (report_ensures equals "Invalid assignment target").bind fun _ =>
          Ensures.pure fun _ _ impossible => impossible.elim

end Levels

/-- A token that is a factor by itself. -/
theorem atom_ensures {token : Token} {expr : Expr} (listed : token.kind ∈ atoms)
    (bare : ∀ name, expr = .reference name → token.kind = .identifier) :
    Ensures (do let _ ← advance; return expr) fun middle found rest =>
      ∀ start, (middle = start ∧ start.head? = some token.kind) →
        Passed (.part .factor) start found rest := by
  have inside : token.kind ≠ .eof := by
    intro last
    rw [last] at listed
    exact absurd listed (by decide)
  refine passing_ensures inside (Ensures.pure fun rest => ⟨?_, ?_⟩)
  · rw [reads_part, rule, reads_any]
    exact ⟨.oneOf atoms, by simp, reads_oneOf.mpr ⟨token.kind, listed, rfl⟩⟩
  · intro name same
    rw [bare name same]

/-- An operator in front of an operand makes a factor of the two. -/
theorem sign_ensures {token : Token} {factor : Parse Expr} (listed : token.kind ∈ signs)
    (factorEnsures : Ensures factor (Passed (.part .factor))) :
    Ensures (do let _ ← advance; let operand ← factor; return .unary token operand)
      fun middle found rest =>
        ∀ start, (middle = start ∧ start.head? = some token.kind) →
          Passed (.part .factor) start found rest := by
  have inside : token.kind ≠ .eof := by
    intro last
    rw [last] at listed
    exact absurd listed (by decide)
  refine passing_ensures inside (factorEnsures.bind fun operand => Ensures.pure ?_)
  intro rest middle passed
  constructor
  · rw [reads_part, rule, reads_any]
    refine ⟨.all [.oneOf signs, .part .factor], by simp, ?_⟩
    rw [reads_all_cons]
    refine ⟨middle, reads_oneOf.mpr ⟨token.kind, listed, rfl⟩, ?_⟩
    exact reads_all_cons.mpr ⟨rest, passed.1, reads_all_nil.mpr rfl⟩
  · intro name same
    cases same

/-- What stands between two parentheses is an expression, and the whole is a factor. -/
theorem group_ensures {token : Token} {inner : Parse Expr} (opens : token.kind = .leftParen)
    (innerSound : Sound inner (.part .expression)) :
    Ensures (do
        let _ ← advance
        let expr ← inner
        let _ ← expect .rightParen "Expected ')' after expression"
        return .group expr)
      fun middle found rest =>
        ∀ start, (middle = start ∧ start.head? = some token.kind) →
          Passed (.part .factor) start found rest := by
  apply passing_ensures (by rw [opens]; decide)
  refine Ensures.bind innerSound fun expr =>
    (expect_ensures _ (by decide)).bind fun _ => Ensures.pure ?_
  intro rest behind closed middle reads
  obtain ⟨_, rfl⟩ := closed
  constructor
  · rw [reads_part, rule, reads_any]
    refine ⟨.all [.word .leftParen, .part .expression, .word .rightParen], by simp, ?_⟩
    simpa [opens] using reads
  · intro name same
    cases same

/-- What is parsed as a factor is a factor of the grammar. -/
theorem factor_ensures (bound : Nat) : Ensures (factor bound) (Passed (.part .factor)) := by
  -- An operand behind a sign and an expression in parentheses both have one bound less.
  induction bound with
  | zero => exact fail_ensures _
  | succ bound inductionHypothesis =>
    refine current_ensures.bind fun token => ?_
    split
    case h_1 _ sign | h_2 _ sign | h_3 _ sign =>
      exact sign_ensures (by simp [sign, signs]) inductionHypothesis
    case h_4 _ atom | h_5 _ atom | h_6 _ atom | h_7 _ atom | h_8 _ atom | h_9 _ atom |
        h_10 _ atom | h_11 _ atom =>
      exact atom_ensures (by simp [atom, atoms]) (by simp)
    case h_12 _ name =>
      exact atom_ensures (by simp [name, atoms]) (by simp [name])
    case h_13 _ opens =>
      exact group_ensures opens (assignment_sound inductionHypothesis bound)
    case h_14 =>
      exact fail_ensures _

/-- Where an expression is parsed, the tokens passed spell one in the grammar. -/
theorem parse_sound : Sound parse (.part .expression) :=
  Sound.counting fun bound => assignment_sound (factor_ensures bound) bound

end Expr

/-! ### Statements -/

namespace Stmt

/-- One more item of a list whose first item was passed before. -/
theorem moreItems_sound {item : Parse α} {tail : Parse (List α)} {phrase : Phrase}
    (itemSound : Sound item phrase) (tailSound : Sound tail (.many (.all [.word .comma, phrase]))) :
    Sound (do
        match ← accept [.comma] with
        | none => return []
        | some _ =>
          let next ← item
          let rest ← tail
          return next :: rest)
      (.many (.all [.word .comma, phrase])) := by
  refine (accept_ensures (by decide)).bind fun found => ?_
  cases found with
  | none =>
    apply Ensures.pure
    intro kinds start same
    subst same
    exact Reads.many_nil kinds
  | some comma =>
    refine Ensures.bind itemSound fun next => Ensures.bind tailSound fun _ => Ensures.pure ?_
    intro rest behind others middle reads start accepted
    obtain ⟨listed, rfl⟩ := accepted
    have sign : comma.kind = .comma := by simpa using listed
    refine Reads.many_cons ?_ others
    simpa [sign] using reads

theorem moreNames_sound (bound : Nat) :
    Sound (moreNames bound) (.many (.all [.word .comma, .word .identifier])) := by
  induction bound with
  | zero => exact Ensures.pure fun kinds => Reads.many_nil kinds
  | succ bound inductionHypothesis =>
    exact moreItems_sound (expect_sound _ (by decide)) inductionHypothesis

/-- A declarator is a name, perhaps with a value behind an equals sign. -/
theorem declarator_sound : Sound declarator (.part .declarator) := by
  apply Sound.production
  refine Sound.bind (expect_sound _ (by decide)) fun name => Sound.last ?_
  refine Sound.optional (by decide) (Sound.pure _) fun _ => ?_
  exact Expr.parse_sound.bind fun expr => Sound.pure _

theorem moreDeclarators_sound (bound : Nat) :
    Sound (moreDeclarators bound) (.many (.all [.word .comma, .part .declarator])) := by
  induction bound with
  | zero => exact Ensures.pure fun kinds => Reads.many_nil kinds
  | succ bound inductionHypothesis => exact moreItems_sound declarator_sound inductionHypothesis

theorem typeName_sound : Sound typeName (.oneOf (VarType.all.map .typeName)) := by
  refine current_ensures.bind fun token => ?_
  split
  · rename_i type named
    refine passing_ensures (by simp [named]) (Ensures.pure fun rest => ?_)
    refine reads_oneOf.mpr ⟨token.kind, ?_, rfl⟩
    rw [named]
    exact List.mem_map_of_mem (by cases type <;> decide)
  · exact fail_ensures _

/-- A declaration passes the word, a type, its declarators and the end of the line. -/
theorem declaration_sound : Sound declaration (.part .declaration) := by
  apply Sound.production
  refine (expect_sound _ (by decide)).bind fun _ => typeName_sound.bind fun _ => Sound.nested ?_
  refine declarator_sound.bind fun _ => Sound.counting fun bound => ?_
  exact (moreDeclarators_sound bound).bind fun _ => (endLine_sound _).bind fun _ => Sound.pure _

theorem printing_sound :
    Sound printing
      (.all [.word .printWord, .word .colon, .part .expression, .word .newline]) := by
  refine (expect_sound _ (by decide)).bind fun _ => (expect_sound _ (by decide)).bind fun _ => ?_
  exact Expr.parse_sound.bind fun _ => (endLine_sound _).bind fun _ => Sound.pure _

theorem scanning_sound :
    Sound scanning
      (.all [.word .scanWord, .word .colon, .list (.word .identifier), .word .newline]) := by
  refine (expect_sound _ (by decide)).bind fun _ => (expect_sound _ (by decide)).bind fun _ => ?_
  refine Sound.nested ((expect_sound _ (by decide)).bind fun _ => Sound.counting fun bound => ?_)
  exact (moreNames_sound bound).bind fun _ => (endLine_sound _).bind fun _ => Sound.pure _

theorem condition_sound (header : String) : Sound (condition header) .condition := by
  refine (expect_sound _ (by decide)).bind fun _ => Expr.parse_sound.bind fun _ => ?_
  exact (expect_sound _ (by decide)).bind fun _ => (endLine_sound _).bind fun _ => Sound.pure _

/-- A clause is absent just when the parser stands at the token that closes it. -/
theorem clause_sound (closer : TokenKind) :
    Sound (clause closer) (.optional (.part .expression)) := by
  refine Sound.branch (Sound.pure none) (Ensures.bind Expr.parse_sound fun expr => Ensures.pure ?_)
  intro rest start reads
  exact reads

/-- Asking whether a run is over passes no token. -/
theorem atEnd_ensures (nesting : Nesting) :
    Ensures (atEnd nesting) fun start _ rest => rest = start where
  ok := by
    intro progress value reached ending
    cases ending
    exact ⟨Nat.le_refl _, fun _ ended => ⟨rfl, ended⟩⟩
  error := by
    intro progress error reached ending
    cases ending

section Nested

variable {item : Parse Stmt} (itemSound : Sound item (.part .statement))

include itemSound

/-- A turn that reports nothing has passed a statement. -/
theorem round_ensures :
    Ensures (round item) fun start _ rest => Reads (.part .statement) start rest := by
  refine (check_ensures [.endWord]).bind fun found => ?_
  cases found with
  | true =>
    refine current_ensures.bind fun token => (report_ensures token _).bind fun _ =>
      skipLine_ensures.bind fun _ => Ensures.pure ?_
    intro rest line _ reported impossible
    exact impossible.elim
  | false =>
    apply (recover_ensures itemSound).weaken
    intro middle found rest passed start same
    obtain ⟨_, _, reads⟩ := passed
    exact same.1 ▸ reads

/-- The turns of a run read statements, each with the blank lines behind it. -/
theorem runFrom_sound (nesting : Nesting) (bound : Nat) :
    Sound (runFrom nesting item bound) (.lines .statement) := by
  induction bound with
  | zero => exact Ensures.pure fun kinds => Reads.many_nil kinds
  | succ bound inductionHypothesis =>
    refine (atEnd_ensures nesting).bind fun ended => ?_
    cases ended with
    | true =>
      apply Ensures.pure
      intro kinds start same
      subst same
      exact Reads.many_nil kinds
    | false =>
      refine (round_ensures itemSound).bind fun _ => Ensures.bind skipNewlines_sound fun _ =>
        Ensures.bind inductionHypothesis fun _ => Ensures.pure ?_
      intro rest behind others middle blanks looked reads start same
      subst same
      refine Reads.many_cons ?_ others
      simp only [reads_all_cons, reads_all_nil]
      exact ⟨middle, reads, behind, blanks, rfl⟩

theorem run_sound (nesting : Nesting) :
    Sound (run nesting item) (.all [.blank, .lines .statement]) :=
  skipNewlines_sound.bind fun _ => Sound.counting fun bound =>
    (runFrom_sound itemSound nesting bound).last

/-- A block passes its opening line, a run of statements and its end words. -/
theorem blockOf_sound {form : TokenKind} (inside : form ≠ .eof) :
    Sound (blockOf item form) (.part (.block form)) := by
  apply Sound.production
  refine skipNewlines_sound.bind fun _ => (expect_sound _ (by decide)).bind fun _ => ?_
  refine (expect_sound _ inside).bind fun _ => (endLine_sound _).bind fun _ => ?_
  refine (run_sound itemSound .inBlock).bind_all fun _ => ?_
  refine (expect_sound _ (by decide)).bind fun _ => (expect_sound _ inside).bind fun _ => ?_
  exact Sound.pure _

theorem blockLine_sound {form : TokenKind} {message : String} {build : Stmt → α}
    (inside : form ≠ .eof) :
    Sound (do
        let block ← blockOf item form
        endLine message
        return build block)
      (.blockLine form) :=
  (blockOf_sound itemSound inside).bind fun _ => (endLine_sound _).bind fun _ => Sound.pure _

/-- What is parsed as a conditional is a conditional of the grammar, however many branches it has.
-/
theorem conditional_sound (bound : Nat) : Sound (conditional item bound) (.part .conditional) := by
  -- Every further branch has one bound less.
  induction bound with
  | zero => exact fail_ensures _
  | succ bound inductionHypothesis =>
    apply Sound.production
    refine (expect_sound _ (by decide)).bind fun keyword => (condition_sound _).bind fun test => ?_
    refine Sound.nested ((blockOf_sound itemSound (by decide)).bind fun thenBranch => ?_)
    refine (endLine_sound _).bind fun _ => skipNewlines_sound.bind fun _ => Sound.last ?_
    refine Sound.optional (by decide) (Sound.pure _) fun _ => Sound.last (Sound.branch ?_ ?_)
    · refine Ensures.bind inductionHypothesis fun elseBranch => Ensures.pure ?_
      intro rest start reads
      exact reads
    · exact (endLine_sound _).bind fun _ => (blockLine_sound itemSound (by decide)).last

theorem repetition_sound :
    Sound (repetition item)
      (.all [.word .repeatWord, .word .whenWord, .condition, .blockLine .repeatWord]) := by
  refine (expect_sound _ (by decide)).bind fun keyword => (expect_sound _ (by decide)).bind fun _ =>
    ?_
  exact (condition_sound _).bind fun test => (blockLine_sound itemSound (by decide)).last

theorem counting_sound :
    Sound (counting item)
      (.all [.word .forWord, .word .leftParen, .optional (.part .expression), .word .comma,
        .optional (.part .expression), .word .comma, .optional (.part .expression),
        .word .rightParen, .word .newline, .blockLine .forWord]) := by
  refine (expect_sound _ (by decide)).bind fun keyword => (expect_sound _ (by decide)).bind fun _ =>
    ?_
  refine (clause_sound _).bind fun first => (expect_sound _ (by decide)).bind fun _ => ?_
  refine (clause_sound _).bind fun test => (expect_sound _ (by decide)).bind fun _ => ?_
  refine (clause_sound _).bind fun last => (expect_sound _ (by decide)).bind fun _ => ?_
  exact (endLine_sound _).bind fun _ => (blockLine_sound itemSound (by decide)).last

/-- The first token decides which form is parsed, and each form is the production of that token. -/
theorem statementOver_sound : Sound (statementOver item) (.part .statement) := by
  refine Sound.looking fun token => ?_
  split
  · exact fail_ensures _
  · exact Sound.choice rfl (by simp) printing_sound
  · exact Sound.choice rfl (by simp) scanning_sound
  · exact Sound.choice rfl (by simp) (Sound.counting fun bound => conditional_sound itemSound bound)
  · exact Sound.choice rfl (by simp) (repetition_sound itemSound)
  · exact Sound.choice rfl (by simp) (counting_sound itemSound)
  · have line : Sound expressionLine (.all [.part .expression, .word .newline]) :=
      Expr.parse_sound.bind fun expr => (endLine_sound _).bind fun _ => Sound.pure _
    exact Sound.choice rfl (by simp) line

end Nested

/-- What is parsed as a statement is a statement of the grammar. -/
theorem statement_sound (bound : Nat) : Sound (statement bound) (.part .statement) := by
  -- The statements inside a statement are parsed with one bound less.
  induction bound with
  | zero => exact fail_ensures _
  | succ bound inductionHypothesis => exact statementOver_sound inductionHypothesis

end Stmt

/-! ### Programs -/

namespace Program

/-- The opening of a program, up to the line where the declarations start. -/
theorem header_sound :
    Sound header (.all [
      .blank, .word .scriptWord, .word .areaWord, .word .newline,
      .blank, .word .startWord, .word .scriptWord, .word .newline]) := by
  refine skipNewlines_sound.bind fun _ => ?_
  refine (expectAll_sound _ (by decide)).bind_all fun _ => ?_
  exact skipNewlines_sound.bind fun _ => expectAll_sound _ (by decide)

/-- The lines that start with DECLARE read declarations. -/
theorem declarationsFrom_sound (bound : Nat) :
    Sound (declarationsFrom bound) (.lines .declaration) := by
  induction bound with
  | zero => exact Ensures.pure fun kinds => Reads.many_nil kinds
  | succ bound inductionHypothesis =>
    refine (check_ensures [.declareWord]).bind fun found => ?_
    cases found with
    | false =>
      apply Ensures.pure
      intro kinds start same
      rw [same.1]
      exact Reads.many_nil start
    | true =>
      refine (recover_ensures Stmt.declaration_sound).bind fun _ =>
        Ensures.bind skipNewlines_sound fun _ =>
          Ensures.bind inductionHypothesis fun _ => Ensures.pure ?_
      intro rest behind others middle blanks looked found start same
      obtain ⟨_, _, reads⟩ := found
      obtain ⟨rfl, _⟩ := same
      refine Reads.many_cons ?_ others
      simp only [reads_all_cons, reads_all_nil]
      exact ⟨middle, reads, behind, blanks, rfl⟩

theorem declarations_sound : Sound declarations (.all [.blank, .lines .declaration]) :=
  skipNewlines_sound.bind fun _ => Sound.counting fun bound => (declarationsFrom_sound bound).last

/-- The closing lines of a program, with nothing but the end of the tokens behind them. -/
theorem footer_ensures :
    Ensures footer fun start _ rest =>
      Reads (.all [.word .endWord, .word .scriptWord, .blank]) start rest ∧
        rest.head? = some .eof := by
  refine Ensures.bind (expectAll_sound _ (by decide)) fun _ =>
    Ensures.bind skipNewlines_sound fun _ => (check_ensures [.eof]).bind fun found => ?_
  cases found with
  | false => exact fail_ensures _
  | true =>
    apply Ensures.pure
    intro rest behind same middle blanks start words
    obtain ⟨rfl, kind, front, listed⟩ := same
    have last : kind = .eof := by simpa using listed.symm
    refine ⟨?_, last ▸ front⟩
    exact (reads_all_append _).mpr
      ⟨middle, words, reads_all_cons.mpr ⟨rest, blanks, reads_all_nil.mpr rfl⟩⟩

/-- The declarations leave no blank lines, and the statements begin by passing blank lines, which
are therefore counted to the declarations. -/
theorem reads_program {start behind middle ended rest last : List TokenKind}
    (opening : Reads (.all [
      .blank, .word .scriptWord, .word .areaWord, .word .newline,
      .blank, .word .startWord, .word .scriptWord, .word .newline]) start behind)
    (declared : Reads (.all [.blank, .lines .declaration]) behind middle)
    (executed : Reads (.all [.blank, .lines .statement]) middle ended)
    (closing : Reads (.all [.word .endWord, .word .scriptWord, .blank]) ended rest)
    (finished : rest = .eof :: last) :
    Reads (.part .program) start last := by
  simp only [reads_all_cons, reads_all_nil] at declared executed
  obtain ⟨_, blanks, _, declarations, rfl⟩ := declared
  obtain ⟨_, between, closed, statements, rfl⟩ := executed
  obtain ⟨moved, skipped, lines⟩ := blanks.lines_blank declarations between
  have body : Reads (.all [.blank, .lines .declaration, .lines .statement]) behind closed := by
    simp only [reads_all_cons, reads_all_nil]
    exact ⟨moved, skipped, _, lines, closed, statements, rfl⟩
  have final : Reads (.all [.word .eof]) rest last := by
    simpa using finished
  exact reads_part.mpr ((reads_all_append _).mpr ⟨behind, opening, (reads_all_append _).mpr
    ⟨closed, body, (reads_all_append _).mpr ⟨rest, closing, final⟩⟩⟩)

/-- A whole program, as far as the token that closes the list: the token itself is not passed. -/
theorem statements_ensures :
    Ensures statements fun start _ rest =>
      rest.head? = some .eof ∧ ∀ last, rest = .eof :: last → Reads (.part .program) start last := by
  refine Ensures.bind header_sound fun _ => Ensures.bind declarations_sound fun first => ?_
  refine Ensures.bind (Sound.counting fun bound => Stmt.run_sound (Stmt.statement_sound bound)
    .topLevel) fun found => footer_ensures.bind fun _ => Ensures.pure ?_
  intro rest ended closing middle executed behind declared start opening
  refine ⟨closing.2, ?_⟩
  intro last finished
  exact reads_program opening declared executed closing.1 finished

/-- An accepted program is derived by the grammar. -/
theorem derives_of_parse {tokens : List Token} (ended : EndsOnce (tokens.map Token.kind))
    (accepted : (parse tokens).program.isSome) :
    Derives (.part .program) (tokens.map Token.kind) := by
  have front := Cursor.kinds_ofTokens ended
  rw [parse_eq] at accepted
  cases ending : statements (Progress.ofTokens tokens) with
  | error error reached =>
    rw [ending] at accepted
    cases accepted
  | ok found reached =>
    rw [ending] at accepted
    have quiet : reached.errors = [] := by
      by_cases empty : reached.errors.isEmpty
      · simpa using empty
      · simp [empty] at accepted
    obtain ⟨⟨last, whole⟩, stillEnded⟩ := (statements_ensures.ok ending).2
      (by rw [quiet]; rfl) (front ▸ ended)
    obtain ⟨others, shape⟩ := List.head?_eq_some_iff.mp last
    rw [shape, EndsOnce.eof_cons_iff] at stillEnded
    rw [derives_iff_reads_nil, ← front]
    exact whole [] (stillEnded ▸ shape)

end Program

end LineScript
