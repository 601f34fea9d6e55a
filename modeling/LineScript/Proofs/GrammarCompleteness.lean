/-
Module: LineScript.Proofs.GrammarCompleteness
Purpose: The parser accepts everything that the grammar derives, and so exactly that.
Trusted boundary: none
Main exports: Complete, Begins, statement_complete, parse_of_derives, parse_isSome_iff_derives
-/
import LineScript.Proofs.GrammarSoundness

/-!
The parser decides with one token in sight. What keeps its decisions right is which kinds a phrase
can start with and which kinds can follow it: an expression is followed by a newline, a comma or a
closing parenthesis, and a statement by another statement or an `END`, perhaps with blank lines in
between. A conditional may pass more blank lines than its derivation has, so a statement is said to
leave the right kinds only up to blank lines.
-/

namespace LineScript

open Grammar Parse

/-- The first kind, if there is one, is none of those that are barred. -/
def Bars (barred : List TokenKind) (kinds : List TokenKind) : Prop :=
  ∀ kind, kinds.head? = some kind → kind ∉ barred

theorem bars_cons {barred : List TokenKind} {kind : TokenKind} {rest : List TokenKind} :
    Bars barred (kind :: rest) ↔ kind ∉ barred := by
  simp [Bars]

/-- Barring fewer kinds is easier. -/
theorem Bars.mono {barred fewer kinds : List TokenKind} (bars : Bars barred kinds)
    (included : ∀ kind ∈ fewer, kind ∈ barred) : Bars fewer kinds :=
  fun kind front listed => bars kind front (included kind listed)

/-- A repetition is over, or its first round is followed by the other rounds. -/
theorem Grammar.Reads.many_cases {phrase : Phrase} {start rest : List TokenKind}
    (reads : Reads (.many phrase) start rest) :
    start = rest ∨ ∃ middle, Reads phrase start middle ∧ Reads (.many phrase) middle rest := by
  refine Reads.many_rec (motive := fun kinds => kinds = rest ∨ ∃ middle,
    Reads phrase kinds middle ∧ Reads (.many phrase) middle rest) (.inl rfl) ?_ reads
  intro kinds middle head tail _
  exact .inr ⟨middle, head, tail⟩

namespace Expr

/-! ### Chains of operands -/

/-- The parser accepts what a symbol derives from at most so many kinds, unless a barred kind
follows. -/
def Complete (size : Nat) (parser : Parse Expr) (symbol : Symbol) (barred : List TokenKind) :
    Prop :=
  ∀ ⦃start rest⦄, start.length ≤ size → Reads (.part symbol) start rest → Bars barred rest →
    Passes parser start rest

/-- The loop of a level stops in front of a token that is none of its operators. -/
theorem chainFrom_done {operators : List TokenKind} {node : Expr → Token → Expr → Expr}
    {operand : Parse Expr} {rest : List TokenKind} (bars : Bars operators rest) (bound : Nat)
    (first : Expr) :
    Accepts (chainFrom operators node operand bound first) rest fun expr left =>
      expr = first ∧ left = rest := by
  cases bound with
  | zero => exact Accepts.pure ⟨rfl, rfl⟩
  | succ bound =>
    cases rest with
    | nil => exact Accepts.nil
    | cons kind rest =>
      apply (accept_unlisted (bars_cons.mp bars)).bind
      intro found left same
      obtain ⟨rfl, rfl⟩ := same
      exact Accepts.pure ⟨rfl, rfl⟩

/-- A chain of a single operand is what its operand is. -/
theorem chain_alone {operators : List TokenKind} {node : Expr → Token → Expr → Expr}
    {operand : Parse Expr} {start rest : List TokenKind} {shape : Expr → Prop}
    (operandAccepts : Accepts operand start fun expr left => shape expr ∧ left = rest)
    (bars : Bars operators rest) :
    Accepts (chain operators node operand) start fun expr left => shape expr ∧ left = rest := by
  apply operandAccepts.bind
  intro first middle passed
  obtain ⟨shaped, rfl⟩ := passed
  refine Accepts.counting ((chainFrom_done bars _ first).weaken ?_)
  intro expr left same
  exact ⟨same.1 ▸ shaped, same.2⟩

/-- What stands behind an operand of a chain: another operator, or what stands behind the chain. -/
theorem bars_behind_operand {operators barred : List TokenKind} {symbol : Symbol}
    {middle rest : List TokenKind} (apart : ∀ kind ∈ operators, kind ∉ barred)
    (more : Reads (.many (.all [.oneOf operators, .part symbol])) middle rest)
    (bars : Bars barred rest) : Bars barred middle := by
  rcases more.many_cases with same | ⟨behind, reads, _⟩
  · exact same ▸ bars
  · rw [reads_all_cons] at reads
    obtain ⟨_, operator, _⟩ := reads
    obtain ⟨kind, listed, rfl⟩ := reads_oneOf.mp operator
    exact bars_cons.mpr (apart kind listed)

/-- The loop follows a chain of the grammar operator by operator. -/
theorem chainFrom_passes {size : Nat} {operators barred : List TokenKind}
    {node : Expr → Token → Expr → Expr} {operand : Parse Expr} {symbol : Symbol}
    {middle rest : List TokenKind} (inside : .eof ∉ operators)
    (apart : ∀ kind ∈ operators, kind ∉ barred)
    (operandComplete : Complete size operand symbol barred)
    (bars : Bars (operators ++ barred) rest)
    (more : Reads (.many (.all [.oneOf operators, .part symbol])) middle rest) :
    ∀ bound first, middle.length ≤ bound → middle.length ≤ size →
      Passes (chainFrom operators node operand bound first) middle rest := by
  have barsOperators : Bars operators rest := bars.mono (by simp_all)
  have barsOperand : Bars barred rest := bars.mono (by simp_all)
  refine Reads.many_rec (motive := fun kinds => ∀ bound first, kinds.length ≤ bound →
    kinds.length ≤ size → Passes (chainFrom operators node operand bound first) kinds rest)
    ?_ ?_ more
  · intro bound first _ _
    exact (chainFrom_done barsOperators bound first).weaken fun same => same.2
  · intro start behind head tail inductionHypothesis bound first fits small
    simp only [reads_all_cons, reads_all_nil] at head
    obtain ⟨operands, operator, _, right, rfl⟩ := head
    obtain ⟨kind, listed, rfl⟩ := reads_oneOf.mp operator
    have shorter := right.length_le
    simp only [List.length_cons] at fits small
    cases bound with
    | zero => omega
    | succ bound =>
      refine (accept_listed (fun last => inside (last ▸ listed)) listed).bind ?_
      intro found left same
      obtain ⟨present, rfl⟩ := same
      obtain ⟨token, rfl⟩ := Option.isSome_iff_exists.mp present
      -- The next operator, or what may not follow the chain, bars the operand from going on.
      refine Passes.bind (operandComplete (by omega) right
        (bars_behind_operand apart tail barsOperand)) fun value => ?_
      exact inductionHypothesis bound _ (by omega) (by omega)

/-- A level accepts a chain of operands if what follows is neither an operator of it nor barred
behind its operands. -/
theorem chain_complete {size : Nat} {operators barred : List TokenKind}
    {node : Expr → Token → Expr → Expr} {operand : Parse Expr} {symbol level : Symbol}
    (production : rule level = .chain operators symbol) (inside : .eof ∉ operators)
    (apart : ∀ kind ∈ operators, kind ∉ barred)
    (operandComplete : Complete size operand symbol barred) :
    Complete size (chain operators node operand) level (operators ++ barred) := by
  intro start rest small reads bars
  rw [reads_part, production, Phrase.chain] at reads
  simp only [reads_all_cons, reads_all_nil] at reads
  obtain ⟨middle, head, _, more, rfl⟩ := reads
  have shorter := head.length_le
  have behind := bars_behind_operand apart more (bars.mono (by simp_all))
  refine Passes.bind (operandComplete small head behind) fun first => Accepts.counting ?_
  exact chainFrom_passes inside apart operandComplete bars more _ first (Nat.le_refl _) (by omega)

/-- The operators of all chains, the loosest first. -/
def operators : List TokenKind :=
  [TokenKind.orWord] ++ ([TokenKind.andWord] ++ ([TokenKind.equalEqual, .notEqual] ++
    ([TokenKind.greater, .greaterEqual, .less, .lessEqual] ++
      ([TokenKind.plus, .minus, .concat, .modulo] ++ ([TokenKind.star, .slash] ++ [])))))

section Levels

variable {size : Nat} {factor : Parse Expr} (factorComplete : Complete size factor .factor [])

include factorComplete

/-- Every expression without assignment is accepted, unless an operator of some level follows, which
would be passed too. -/
theorem disjunction_complete : Complete size (disjunction factor) .disjunction operators := by
  have products : Complete size (product factor) .product _ :=
    chain_complete rfl (by decide) (by decide) factorComplete
  have sums : Complete size (sum factor) .sum _ :=
    chain_complete rfl (by decide) (by decide) products
  have comparisons : Complete size (comparison factor) .comparison _ :=
    chain_complete rfl (by decide) (by decide) sums
  have equalities : Complete size (equality factor) .equality _ :=
    chain_complete rfl (by decide) (by decide) comparisons
  have conjunctions : Complete size (conjunction factor) .conjunction _ :=
    chain_complete rfl (by decide) (by decide) equalities
  have disjunctions : Complete size (disjunction factor) .disjunction _ :=
    chain_complete rfl (by decide) (by decide) conjunctions
  exact disjunctions

omit factorComplete in
/-- A single factor keeps its shape through all levels. -/
theorem disjunction_alone {start rest : List TokenKind} {shape : Expr → Prop}
    (factorAccepts : Accepts factor start fun expr left => shape expr ∧ left = rest)
    (bars : Bars operators rest) :
    Accepts (disjunction factor) start fun expr left => shape expr ∧ left = rest := by
  refine chain_alone (chain_alone (chain_alone (chain_alone (chain_alone (chain_alone
    factorAccepts ?_) ?_) ?_) ?_) ?_) ?_
  all_goals exact bars.mono (by decide)

/-- An assignment is recognized by the bare variable and the sign behind it. -/
theorem assignment_passes
    (identifierAccepts : ∀ rest, Accepts factor (.identifier :: rest) fun expr left =>
      (∃ name, expr = .reference name) ∧ left = rest)
    (bound : Nat) {start rest : List TokenKind} (fits : start.length ≤ bound)
    (small : start.length ≤ size) (reads : Reads (.part .expression) start rest)
    (bars : Bars (.equal :: operators) rest) :
    Passes (assignment factor bound) start rest := by
  -- The production recurses on the right side of `=` only.
  induction bound generalizing start with
  | zero =>
    cases start with
    | nil => exact Accepts.nil
    | cons kind start => simp at fits
  | succ bound inductionHypothesis =>
    rw [reads_part, rule, reads_any] at reads
    obtain ⟨phrase, chosen, reads⟩ := reads
    simp only [List.mem_cons, List.not_mem_nil, or_false] at chosen
    rcases chosen with rfl | rfl
    · simp only [reads_all_cons, reads_all_nil, reads_word] at reads
      obtain ⟨_, rfl, value, rfl, _, tail, rfl⟩ := reads
      simp only [List.length_cons] at fits small
      have target := disjunction_alone (identifierAccepts (.equal :: value))
        (bars_cons.mpr (by decide))
      apply target.bind
      intro expr left passed
      obtain ⟨⟨name, rfl⟩, rfl⟩ := passed
      apply (accept_listed (by decide) (by simp)).bind
      intro found left same
      obtain ⟨present, rfl⟩ := same
      obtain ⟨equals, rfl⟩ := Option.isSome_iff_exists.mp present
      exact Passes.bind (inductionHypothesis (by omega) (by omega) tail) fun _ => Accepts.pure rfl
    -- Without a `=` the bar on the following kind is what keeps `accept` from taking one.
    · refine Passes.bind (disjunction_complete factorComplete small reads (bars.mono (by simp_all)))
        fun target => ?_
      cases rest with
      | nil => exact Accepts.nil
      | cons kind rest =>
        have other : kind ∉ [TokenKind.equal] := by
          have unlisted := bars_cons.mp bars
          simp_all
        apply (accept_unlisted other).bind
        intro found left same
        obtain ⟨rfl, rfl⟩ := same
        exact Accepts.pure rfl

end Levels

/-! ### Factors -/

/-- A sign and an operand are accepted with one bound more than the operand. -/
theorem factor_sign {bound : Nat} {kind : TokenKind} {middle rest : List TokenKind}
    (listed : kind ∈ signs) (operand : Passes (factor bound) middle rest) :
    Passes (factor (bound + 1)) (kind :: middle) rest := by
  refine Accepts.looking fun token sameKind => ?_
  simp only [signs, List.mem_cons, List.not_mem_nil, or_false] at listed
  rcases listed with rfl | rfl | rfl
  all_goals
    simp only [sameKind]
    exact (advance_passes (by decide)).bind fun _ => Passes.bind operand fun _ => Accepts.pure rfl

/-- A literal is accepted by itself. -/
theorem factor_atom {bound : Nat} {kind : TokenKind} {rest : List TokenKind}
    (listed : kind ∈ atoms) : Passes (factor (bound + 1)) (kind :: rest) rest := by
  refine Accepts.looking fun token sameKind => ?_
  simp only [atoms, List.mem_cons, List.not_mem_nil, or_false] at listed
  rcases listed with rfl | rfl | rfl | rfl | rfl | rfl | rfl | rfl | rfl
  all_goals
    simp only [sameKind]
    exact (advance_passes (by decide)).bind fun _ => Accepts.pure rfl

/-- So is a name, and the parser finds a reference: this is what makes a target of an assignment. -/
theorem factor_identifier (bound : Nat) (rest : List TokenKind) :
    Accepts (factor (bound + 1)) (.identifier :: rest) fun expr left =>
      (∃ name, expr = .reference name) ∧ left = rest := by
  refine Accepts.looking fun token sameKind => ?_
  simp only [sameKind]
  exact (advance_passes (by decide)).bind fun _ => Accepts.pure ⟨⟨token, rfl⟩, rfl⟩

/-- An expression in parentheses may have any operator in it, since the closing parenthesis stops
the parser. -/
theorem factor_group {bound : Nat} {middle rest : List TokenKind}
    (inner : Passes (assignment (factor bound) bound) middle (.rightParen :: rest)) :
    Passes (factor (bound + 1)) (.leftParen :: middle) rest := by
  refine Accepts.looking fun token sameKind => ?_
  simp only [sameKind]
  refine (advance_passes (by decide)).bind fun _ => Passes.bind inner fun _ => ?_
  exact (expect_passes (by decide)).bind fun _ => Accepts.pure rfl

/-- Factors nest at most as deep as there are kinds, each level passing at least one of them. -/
theorem factor_complete (size : Nat) : Complete size (factor size) .factor [] := by
  induction size with
  | zero =>
    intro start rest small _ _
    cases start with
    | nil => exact Accepts.nil
    | cons kind start => simp at small
  | succ size inductionHypothesis =>
    intro start rest small reads bars
    rw [reads_part, rule, reads_any] at reads
    obtain ⟨phrase, chosen, reads⟩ := reads
    simp only [List.mem_cons, List.not_mem_nil, or_false] at chosen
    rcases chosen with rfl | rfl | rfl
    · simp only [reads_all_cons, reads_all_nil] at reads
      obtain ⟨middle, sign, _, operand, rfl⟩ := reads
      obtain ⟨kind, listed, rfl⟩ := reads_oneOf.mp sign
      simp only [List.length_cons] at small
      exact factor_sign listed (inductionHypothesis (by omega) operand bars)
    · obtain ⟨kind, listed, rfl⟩ := reads_oneOf.mp reads
      exact factor_atom listed
    · simp only [reads_all_cons, reads_all_nil, reads_word] at reads
      obtain ⟨middle, rfl, _, inner, _, rfl, rfl⟩ := reads
      simp only [List.length_cons] at small
      -- A group reads its factors with one bound less: at the smallest one it can hold nothing.
      apply factor_group
      cases size with
      | zero =>
        have nothing : middle = [] := by
          cases middle with
          | nil => rfl
          | cons kind middle => simp at small
        exact nothing ▸ Accepts.nil
      | succ size =>
        exact assignment_passes inductionHypothesis (factor_identifier size) (size + 1)
          (by omega) (by omega) inner (bars_cons.mpr (by decide))

/-- What may not follow an expression, since it would belong to it. -/
def continuations : List TokenKind := .equal :: operators

/-- With its bound taken from the tokens left, the parser accepts every expression that the grammar
has, unless it would go on. -/
theorem parse_passes {start rest : List TokenKind} (reads : Reads (.part .expression) start rest)
    (bars : Bars continuations rest) : Passes parse start rest := by
  apply Accepts.counting
  cases start with
  | nil => exact Accepts.nil
  | cons kind start =>
    exact assignment_passes (factor_complete _) (factor_identifier start.length) _
      (Nat.le_refl _) (Nat.le_refl _) reads bars

end Expr

/-! ### What phrases start with -/

namespace Grammar

/-- All that a symbol derives starts with one of some kinds. -/
def Begins (symbol : Symbol) (kinds : List TokenKind) : Prop :=
  ∀ ⦃start rest⦄, Reads (.part symbol) start rest → ∃ kind ∈ kinds, ∃ others, start = kind :: others

/-- What starts with a token passes one. -/
theorem Begins.length_lt {symbol : Symbol} {kinds start rest : List TokenKind}
    (begins : Begins symbol kinds) (reads : Reads (.part symbol) start rest) :
    rest.length < start.length := by
  obtain ⟨found, derivation, rfl⟩ := reads
  obtain ⟨kind, _, others, shape⟩ := begins ⟨found, derivation, (List.append_nil found).symm⟩
  rw [shape, List.length_append, List.length_cons]
  omega

/-- The kinds that start an expression. -/
def expressionStarts : List TokenKind := signs ++ atoms ++ [.leftParen]

/-- The kinds that start a statement. -/
def statementStarts : List TokenKind :=
  [TokenKind.printWord, .scanWord, .ifWord, .repeatWord, .forWord] ++ expressionStarts

/-- What a factor can start with. -/
theorem factor_begins : Begins .factor expressionStarts := by
  intro start rest reads
  rw [reads_part, rule, reads_any] at reads
  obtain ⟨phrase, chosen, reads⟩ := reads
  simp only [List.mem_cons, List.not_mem_nil, or_false] at chosen
  rcases chosen with rfl | rfl | rfl
  · rw [reads_all_cons] at reads
    obtain ⟨middle, sign, _⟩ := reads
    obtain ⟨kind, listed, rfl⟩ := reads_oneOf.mp sign
    exact ⟨kind, by simp [expressionStarts, listed], middle, rfl⟩
  · obtain ⟨kind, listed, rfl⟩ := reads_oneOf.mp reads
    exact ⟨kind, by simp [expressionStarts, listed], rest, rfl⟩
  · rw [reads_all_cons] at reads
    obtain ⟨middle, opens, _⟩ := reads
    exact ⟨.leftParen, by simp [expressionStarts], middle, reads_word.mp opens⟩

/-- A chain starts as its first operand does. -/
theorem chain_begins {level symbol : Symbol} {operators kinds : List TokenKind}
    (production : rule level = .chain operators symbol) (begins : Begins symbol kinds) :
    Begins level kinds := by
  intro start rest reads
  rw [reads_part, production, Phrase.chain, reads_all_cons] at reads
  obtain ⟨middle, head, _⟩ := reads
  exact begins head

theorem disjunction_begins : Begins .disjunction expressionStarts :=
  chain_begins rfl (chain_begins rfl (chain_begins rfl (chain_begins rfl (chain_begins rfl
    (chain_begins rfl factor_begins)))))

/-- An expression starts with a sign, a literal, a name or a parenthesis. -/
theorem expression_begins : Begins .expression expressionStarts := by
  intro start rest reads
  rw [reads_part, rule, reads_any] at reads
  obtain ⟨phrase, chosen, reads⟩ := reads
  simp only [List.mem_cons, List.not_mem_nil, or_false] at chosen
  rcases chosen with rfl | rfl
  · rw [reads_all_cons] at reads
    obtain ⟨middle, name, _⟩ := reads
    exact ⟨.identifier, by decide, middle, reads_word.mp name⟩
  · exact disjunction_begins reads

/-- A statement starts with its keyword or as an expression does. -/
theorem statement_begins : Begins .statement statementStarts := by
  intro start rest reads
  rw [reads_part, rule, reads_any] at reads
  obtain ⟨phrase, chosen, reads⟩ := reads
  simp only [List.mem_cons, List.not_mem_nil, or_false] at chosen
  rcases chosen with rfl | rfl | rfl | rfl | rfl | rfl
  · obtain ⟨middle, keyword, _⟩ := reads_all_cons.mp reads
    exact ⟨.printWord, by decide, middle, reads_word.mp keyword⟩
  · obtain ⟨middle, keyword, _⟩ := reads_all_cons.mp reads
    exact ⟨.scanWord, by decide, middle, reads_word.mp keyword⟩
  · obtain ⟨middle, expression, _⟩ := reads_all_cons.mp reads
    obtain ⟨kind, listed, others, rfl⟩ := expression_begins expression
    exact ⟨kind, List.mem_append_right _ listed, others, rfl⟩
  · rw [reads_part, rule] at reads
    obtain ⟨middle, keyword, _⟩ := reads_all_cons.mp reads
    exact ⟨.ifWord, by decide, middle, reads_word.mp keyword⟩
  · obtain ⟨middle, keyword, _⟩ := reads_all_cons.mp reads
    exact ⟨.repeatWord, by decide, middle, reads_word.mp keyword⟩
  · obtain ⟨middle, keyword, _⟩ := reads_all_cons.mp reads
    exact ⟨.forWord, by decide, middle, reads_word.mp keyword⟩

/-- A declaration starts with its keyword, and no other line does. -/
theorem declaration_begins : Begins .declaration [.declareWord] := by
  intro start rest reads
  rw [reads_part, rule] at reads
  obtain ⟨middle, keyword, _⟩ := reads_all_cons.mp reads
  exact ⟨.declareWord, List.mem_cons_self, middle, reads_word.mp keyword⟩

/-- Some lines start like one of them, or like what follows them. -/
theorem lines_begin {line : Symbol} {kinds start rest others : List TokenKind} {last : TokenKind}
    (begins : Begins line kinds) (reads : Reads (.lines line) start rest)
    (behind : rest = last :: others) : ∃ kind ∈ last :: kinds, ∃ others, start = kind :: others := by
  rcases reads.many_cases with rfl | ⟨middle, head, _⟩
  · exact ⟨last, List.mem_cons_self, others, behind⟩
  · obtain ⟨ended, first, _⟩ := reads_all_cons.mp head
    obtain ⟨kind, listed, others, rfl⟩ := begins first
    exact ⟨kind, List.mem_cons_of_mem last listed, others, rfl⟩

end Grammar

/-! ### Lines without nested statements -/

namespace Stmt

/-- A list of items up to the end of its line. The parser of further items is known only by its two
equations, since names and declared names have one each. -/
theorem moreItems_passes (more : Nat → Parse (List α)) {item : Parse α} {phrase : Phrase}
    {rest : List TokenKind} (stops : more 0 = pure [])
    (goes : ∀ bound, more (bound + 1) = do
      match ← accept [.comma] with
      | none => return []
      | some _ =>
        let next ← item
        let rest ← more bound
        return next :: rest)
    (itemPasses : ∀ {start middle}, Reads phrase start middle → Bars Expr.continuations middle →
      Passes item start middle)
    {start : List TokenKind}
    (reads : Reads (.many (.all [.word .comma, phrase])) start (.newline :: rest)) :
    Bars Expr.continuations start ∧
      ∀ bound, start.length ≤ bound → Passes (more bound) start (.newline :: rest) := by
  -- What follows an item is either the next comma or the line end, and neither continues an
  -- expression: the first conjunct hands that to the item in front.
  refine Reads.many_rec (motive := fun kinds => Bars Expr.continuations kinds ∧
    ∀ bound, kinds.length ≤ bound → Passes (more bound) kinds (.newline :: rest)) ?_ ?_ reads
  · refine ⟨bars_cons.mpr (by decide), ?_⟩
    intro bound _
    cases bound with
    | zero => exact stops ▸ Accepts.pure rfl
    | succ bound =>
      rw [goes]
      apply (accept_unlisted (by decide)).bind
      intro found left same
      obtain ⟨rfl, rfl⟩ := same
      exact Accepts.pure rfl
  · intro start middle head _ inductionHypothesis
    simp only [reads_all_cons, reads_all_nil, reads_word] at head
    obtain ⟨items, rfl, _, next, rfl⟩ := head
    refine ⟨bars_cons.mpr (by decide), ?_⟩
    intro bound fits
    have shorter := next.length_le
    simp only [List.length_cons] at fits
    cases bound with
    | zero => omega
    | succ bound =>
      rw [goes]
      apply (accept_listed (by decide) (by simp)).bind
      intro found left same
      obtain ⟨present, rfl⟩ := same
      obtain ⟨comma, rfl⟩ := Option.isSome_iff_exists.mp present
      refine Passes.bind (itemPasses next inductionHypothesis.1) fun _ => ?_
      exact Passes.bind (inductionHypothesis.2 bound (by omega)) fun _ => Accepts.pure rfl

/-- An initial value is accepted up to the comma or the end of the line. -/
theorem declarator_passes {start rest : List TokenKind} (reads : Reads (.part .declarator) start rest)
    (bars : Bars Expr.continuations rest) : Passes declarator start rest := by
  rw [reads_part, rule] at reads
  simp only [reads_all_cons, reads_all_nil, reads_word] at reads
  obtain ⟨_, rfl, _, initializer, rfl⟩ := reads
  refine (expect_passes (by decide)).bind fun name => ?_
  rcases reads_optional.mp initializer with rfl | given
  · rename_i middle
    cases middle with
    | nil => exact Accepts.nil
    | cons kind middle =>
      have other : kind ∉ [TokenKind.equal] := by
        have unlisted := bars_cons.mp bars
        simp_all [Expr.continuations]
      apply (accept_unlisted other).bind
      intro found left same
      obtain ⟨rfl, rfl⟩ := same
      exact Accepts.pure rfl
  · simp only [reads_all_cons, reads_all_nil, reads_word] at given
    obtain ⟨value, rfl, _, expression, rfl⟩ := given
    apply (accept_listed (by decide) (by simp)).bind
    intro found left same
    obtain ⟨present, rfl⟩ := same
    obtain ⟨equals, rfl⟩ := Option.isSome_iff_exists.mp present
    exact Passes.bind (Expr.parse_passes expression bars) fun _ => Accepts.pure rfl

theorem typeName_passes {start rest : List TokenKind}
    (reads : Reads (.oneOf (VarType.all.map .typeName)) start rest) : Passes typeName start rest := by
  obtain ⟨kind, listed, rfl⟩ := reads_oneOf.mp reads
  obtain ⟨type, _, rfl⟩ := List.mem_map.mp listed
  refine Accepts.looking fun token sameKind => ?_
  simp only [sameKind]
  exact (advance_passes (by simp)).bind fun _ => Accepts.pure rfl

/-- Every declaration of the grammar is accepted. -/
theorem declaration_passes {start rest : List TokenKind}
    (reads : Reads (.part .declaration) start rest) : Passes declaration start rest := by
  rw [reads_part, rule] at reads
  simp only [Phrase.list, reads_all_cons, reads_all_nil, reads_word] at reads
  obtain ⟨_, rfl, names, type, _, ⟨others, first, _, more, rfl⟩, _, rfl, rfl⟩ := reads
  obtain ⟨bars, passes⟩ := moreItems_passes moreDeclarators rfl (fun _ => rfl) declarator_passes more
  refine (expect_passes (by decide)).bind fun _ => Passes.bind (typeName_passes type) fun _ => ?_
  refine Passes.bind (declarator_passes first bars) fun _ => Accepts.counting ?_
  refine Passes.bind (passes _ (Nat.le_refl _)) fun _ => ?_
  exact endLine_passes.bind fun _ => Accepts.pure rfl

theorem printing_passes {start rest : List TokenKind}
    (reads : Reads (.all [.word .printWord, .word .colon, .part .expression, .word .newline])
      start rest) : Passes printing start rest := by
  simp only [reads_all_cons, reads_all_nil, reads_word] at reads
  obtain ⟨_, rfl, _, rfl, _, expression, _, rfl, rfl⟩ := reads
  refine (expect_passes (by decide)).bind fun _ => (expect_passes (by decide)).bind fun _ => ?_
  refine Passes.bind (Expr.parse_passes expression (bars_cons.mpr (by decide))) fun _ => ?_
  exact endLine_passes.bind fun _ => Accepts.pure rfl

theorem scanning_passes {start rest : List TokenKind}
    (reads : Reads (.all [.word .scanWord, .word .colon, .list (.word .identifier), .word .newline])
      start rest) : Passes scanning start rest := by
  simp only [Phrase.list, reads_all_cons, reads_all_nil, reads_word] at reads
  obtain ⟨_, rfl, _, rfl, _, ⟨others, rfl, _, more, rfl⟩, _, rfl, rfl⟩ := reads
  have namePasses : ∀ {start middle : List TokenKind}, Reads (.word .identifier) start middle →
      Bars Expr.continuations middle →
        Passes (expect .identifier "Expected variable name") start middle := by
    intro start middle name _
    rw [reads_word.mp name]
    exact expect_passes (by decide)
  obtain ⟨_, passes⟩ := moreItems_passes moreNames rfl (fun _ => rfl) namePasses more
  refine (expect_passes (by decide)).bind fun _ => (expect_passes (by decide)).bind fun _ => ?_
  refine (expect_passes (by decide)).bind fun _ => Accepts.counting ?_
  refine Passes.bind (passes _ (Nat.le_refl _)) fun _ => ?_
  exact endLine_passes.bind fun _ => Accepts.pure rfl

theorem condition_passes {header : String} {start rest : List TokenKind}
    (reads : Reads .condition start rest) : Passes (condition header) start rest := by
  simp only [Phrase.condition, reads_all_cons, reads_all_nil, reads_word] at reads
  obtain ⟨_, rfl, _, expression, _, rfl, _, rfl, rfl⟩ := reads
  refine (expect_passes (by decide)).bind fun _ => ?_
  refine Passes.bind (Expr.parse_passes expression (bars_cons.mpr (by decide))) fun _ => ?_
  refine (expect_passes (by decide)).bind fun _ => ?_
  exact endLine_passes.bind fun _ => Accepts.pure rfl

/-- A clause may be left out, for what closes it can neither start an expression nor go on with
one. -/
theorem clause_passes {closer : TokenKind} {start rest : List TokenKind}
    (closes : closer ∉ expressionStarts) (ends : closer ∉ Expr.continuations)
    (reads : Reads (.optional (.part .expression)) start (closer :: rest)) :
    Passes (clause closer) start (closer :: rest) := by
  rcases reads_optional.mp reads with rfl | expression
  · exact Accepts.checked List.mem_cons_self (Accepts.pure rfl)
  · obtain ⟨kind, listed, others, rfl⟩ := expression_begins expression
    have other : kind ∉ [closer] := by
      rw [List.mem_singleton]
      exact ne_of_mem_of_not_mem listed closes
    apply Accepts.unchecked other
    exact Passes.bind (Expr.parse_passes expression (bars_cons.mpr ends)) fun _ => Accepts.pure rfl

/-! ### Statements with nested statements -/

/-- The parser accepts every statement of at most so many kinds that no `ELSE` follows. It may pass
blank lines behind the statement. -/
def Complete (size : Nat) (item : Parse Stmt) : Prop :=
  ∀ ⦃start rest⦄, start.length ≤ size → Reads (.part .statement) start rest →
    Bars [.elseWord] (trim rest) → Accepts item start fun _ left => trim left = trim rest

/-- In a block the word END ends a run. -/
theorem atEnd_block {rest : List TokenKind} :
    Accepts (atEnd .inBlock) (.endWord :: rest) fun found left =>
      found = true ∧ left = .endWord :: rest := by
  intro progress front ended
  refine ⟨_, progress, rfl, rfl, front ▸ ended, ?_, front⟩
  simp [endsAt, (List.cons.inj front).1]

/-- On the top level the words END SCRIPT do. -/
theorem atEnd_script {rest : List TokenKind} :
    Accepts (atEnd .topLevel) (.endWord :: .scriptWord :: rest) fun found left =>
      found = true ∧ left = .endWord :: .scriptWord :: rest := by
  intro progress front ended
  refine ⟨_, progress, rfl, rfl, front ▸ ended, ?_, front⟩
  obtain ⟨⟨before, current, after⟩, errors⟩ := progress
  cases after with
  | nil => simp [Cursor.kinds] at front
  | cons next after =>
    simp only [Cursor.kinds, List.map_cons, List.cons.injEq] at front
    simp [endsAt, Cursor.peek, front.1, front.2.1]

/-- Any other token but the end of the text goes on with the run. -/
theorem atEnd_inside {nesting : Nesting} {kind : TokenKind} {rest : List TokenKind}
    (inside : kind ≠ .eof) (other : kind ≠ .endWord) :
    Accepts (atEnd nesting) (kind :: rest) fun found left =>
      found = false ∧ left = kind :: rest := by
  intro progress front ended
  refine ⟨_, progress, rfl, rfl, front ▸ ended, ?_, front⟩
  unfold endsAt
  split
  · rename_i last
    exact absurd ((List.cons.inj front).1.symm.trans last) inside
  · rename_i last
    exact absurd ((List.cons.inj front).1.symm.trans last) other
  · rfl

/-- Where a run of statements ends. -/
def Stops (nesting : Nesting) (rest : List TokenKind) : Prop :=
  (∃ others, rest = .endWord :: others) ∧
    Accepts (atEnd nesting) rest fun found left => found = true ∧ left = rest

section Nested

variable {size : Nat} {item : Parse Stmt} (itemComplete : Complete size item)

include itemComplete

/-- What the grammar reads as a run of statements the parser accepts, turn by turn. -/
theorem runFrom_passes {nesting : Nesting} {start rest : List TokenKind} (stops : Stops nesting rest)
    (reads : Reads (.lines .statement) start rest) :
    ∀ bound, start.length ≤ bound → start.length ≤ size →
      Passes (runFrom nesting item bound) start rest := by
  obtain ⟨⟨closing, shape⟩, ends⟩ := stops
  -- The induction is on the lines that the grammar reads, since the parser's turns follow them.
  refine Reads.many_rec (motive := fun kinds => ∀ bound, kinds.length ≤ bound →
    kinds.length ≤ size → Passes (runFrom nesting item bound) kinds rest) ?_ ?_ reads
  · intro bound _ _
    cases bound with
    | zero => exact Accepts.pure rfl
    | succ bound =>
      apply ends.bind
      intro found left same
      obtain ⟨rfl, rfl⟩ := same
      exact Accepts.pure rfl
  · intro start middle head tail inductionHypothesis bound fits small
    simp only [reads_all_cons, reads_all_nil] at head
    obtain ⟨ended, first, _, blanks, rfl⟩ := head
    -- What follows the statement and its blank lines is again a statement, or the `END`.
    obtain ⟨next, listed, others, rfl⟩ := lines_begin statement_begins tail shape
    have untouched : trim (next :: others) = next :: others :=
      trim_cons others (ne_of_mem_of_not_mem listed (by decide))
    have moved : trim ended = next :: others := (trim_eq_of_reads_blank blanks).trans untouched
    have noElse : Bars [.elseWord] (trim ended) := by
      rw [moved, bars_cons, List.mem_singleton]
      exact ne_of_mem_of_not_mem listed (by decide)
    have shorter := statement_begins.length_lt first
    have noLonger := blanks.length_le
    obtain ⟨kind, starts, others', rfl⟩ := statement_begins first
    have inside : kind ≠ .eof := ne_of_mem_of_not_mem starts (by decide)
    have other : kind ≠ .endWord := ne_of_mem_of_not_mem starts (by decide)
    cases bound with
    | zero => simp at fits
    | succ bound =>
      apply (atEnd_inside inside other).bind
      intro found left same
      obtain ⟨rfl, rfl⟩ := same
      have roundAccepts : Accepts (round item) (kind :: others') fun _ left =>
          trim left = next :: others := by
        apply Accepts.unchecked (by simpa using other)
        apply (recover_accepts (itemComplete small first noElse)).weaken
        intro found left passed
        obtain ⟨_, _, blank⟩ := passed
        exact blank.trans moved
      apply roundAccepts.bind
      intro found left blank
      refine skipNewlines_passes.bind fun _ => ?_
      rw [blank]
      exact Passes.bind (inductionHypothesis bound (by omega) (by omega)) fun _ => Accepts.pure rfl

/-- A run starts with blank lines. -/
theorem run_passes {nesting : Nesting} {start middle rest : List TokenKind}
    (small : start.length ≤ size) (stops : Stops nesting rest) (blanks : Reads .blank start middle)
    (reads : Reads (.lines .statement) middle rest) : Passes (run nesting item) start rest := by
  obtain ⟨closing, shape⟩ := stops.1
  obtain ⟨next, listed, others, rfl⟩ := lines_begin statement_begins reads shape
  have untouched : trim (next :: others) = next :: others :=
    trim_cons others (ne_of_mem_of_not_mem listed (by decide))
  have noLonger := blanks.length_le
  refine skipNewlines_passes.bind fun _ => ?_
  rw [trim_eq_of_reads_blank blanks, untouched]
  exact Accepts.counting
    (runFrom_passes itemComplete stops reads _ (Nat.le_refl _) (by omega))

/-- A block of the grammar is accepted, its body being shorter than itself. -/
theorem blockOf_passes {form : TokenKind} {start rest : List TokenKind} (inside : form ≠ .eof)
    (small : start.length ≤ size) (reads : Reads (.part (.block form)) start rest) :
    Passes (blockOf item form) start rest := by
  rw [reads_part, rule] at reads
  simp only [reads_all_cons, reads_all_nil, reads_word] at reads
  obtain ⟨_, blanks, _, rfl, _, rfl, body, rfl, _, between, _, lines, _, rfl, _, rfl, rfl⟩ := reads
  have noLonger := blanks.length_le
  simp only [List.length_cons] at noLonger
  refine skipNewlines_passes.bind fun _ => ?_
  rw [trim_eq_of_reads_blank blanks, trim_cons _ (by decide)]
  refine (expect_passes (by decide)).bind fun _ => (expect_passes inside).bind fun _ => ?_
  refine endLine_passes.bind fun _ => ?_
  refine Passes.bind (run_passes itemComplete (by omega) ⟨⟨_, rfl⟩, atEnd_block⟩ between lines)
    fun _ => ?_
  refine (expect_passes (by decide)).bind fun _ => (expect_passes inside).bind fun _ => ?_
  exact Accepts.pure rfl

theorem blockLine_passes {form : TokenKind} {message : String} {build : Stmt → α}
    {start rest : List TokenKind} (inside : form ≠ .eof) (small : start.length ≤ size)
    (reads : Reads (.blockLine form) start rest) :
    Passes (do
        let block ← blockOf item form
        endLine message
        return build block) start rest := by
  simp only [Phrase.blockLine, reads_all_cons, reads_all_nil, reads_word] at reads
  obtain ⟨_, block, _, rfl, rfl⟩ := reads
  refine Passes.bind (blockOf_passes itemComplete inside small block) fun _ => ?_
  exact endLine_passes.bind fun _ => Accepts.pure rfl

/-- Every conditional is accepted. Behind a branch the parser looks over blank lines for ELSE, which
is why what follows may not start with it. -/
theorem conditional_accepts (bound : Nat) {start rest : List TokenKind}
    (fits : start.length ≤ bound) (small : start.length ≤ size + 1)
    (reads : Reads (.part .conditional) start rest) (bars : Bars [.elseWord] (trim rest)) :
    Accepts (conditional item bound) start fun _ left => trim left = trim rest := by
  -- The bound allows for a chain of `ELSE IF`s: each of them is read with one less.
  induction bound generalizing start with
  | zero =>
    cases start with
    | nil => exact Accepts.nil
    | cons kind start => simp at fits
  | succ bound inductionHypothesis =>
    rw [reads_part, rule] at reads
    simp only [reads_all_cons, reads_all_nil, reads_word] at reads
    obtain ⟨_, rfl, _, test, _, line, ended, blanks, final, branch, rfl⟩ := reads
    simp only [Phrase.blockLine, reads_all_cons, reads_all_nil, reads_word] at line
    obtain ⟨_, block, _, rfl, rfl⟩ := line
    have testShorter := test.length_le
    have blockShorter := block.length_le
    have noLonger := blanks.length_le
    simp only [List.length_cons] at fits small blockShorter
    refine (expect_passes (by decide)).bind fun keyword => ?_
    refine Passes.bind (condition_passes test) fun _ => ?_
    refine Passes.bind (blockOf_passes itemComplete (by decide) (by omega) block) fun _ => ?_
    refine endLine_passes.bind fun _ => skipNewlines_passes.bind fun _ => ?_
    rw [trim_eq_of_reads_blank blanks]
    rcases reads_optional.mp branch with rfl | other
    · -- Without an `ELSE` the blank lines behind the block are passed as well.
      cases shape : trim ended with
      | nil => exact Accepts.nil
      | cons kind others =>
        rw [shape] at bars
        apply (accept_unlisted (bars_cons.mp bars)).bind
        intro found left same
        obtain ⟨rfl, rfl⟩ := same
        apply Accepts.pure
        rw [← shape, trim_trim]
    · rw [reads_all_cons] at other
      obtain ⟨behind, word, branch⟩ := other
      rw [reads_word.mp word, trim_cons _ (by decide)]
      rw [reads_word.mp word, List.length_cons] at noLonger
      apply (accept_listed (by decide) (by simp)).bind
      intro found left same
      obtain ⟨present, rfl⟩ := same
      obtain ⟨token, rfl⟩ := Option.isSome_iff_exists.mp present
      simp only [reads_all_cons, reads_all_nil, reads_any, List.mem_cons, List.not_mem_nil,
        or_false, exists_eq_or_imp, exists_eq_left] at branch
      obtain ⟨_, again | ⟨_, newline, _, block, rfl⟩, rfl⟩ := branch
      -- `ELSE IF`: the branch begins with an `IF` of its own, which `check` finds.
      · have opens : ∃ others, left = .ifWord :: others := by
          rw [reads_part, rule, reads_all_cons] at again
          obtain ⟨others, word, _⟩ := again
          exact ⟨others, reads_word.mp word⟩
        obtain ⟨others, rfl⟩ := opens
        apply Accepts.checked List.mem_cons_self
        apply (inductionHypothesis (by omega) (by omega) again).bind
        intro elseBranch left passed
        exact Accepts.pure passed
      -- A bare `ELSE` ends its line and owns a block, which closes the conditional.
      · rw [reads_word.mp newline]
        rw [reads_word.mp newline, List.length_cons] at noLonger
        refine Accepts.unchecked (by decide) (endLine_passes.bind fun _ => ?_)
        apply (blockLine_passes itemComplete (by decide) (by omega) block).weaken
        intro _ left same
        rw [same]

/-- A loop with a condition alone. -/
theorem repetition_passes {start rest : List TokenKind} (small : start.length ≤ size + 1)
    (reads : Reads
      (.all [.word .repeatWord, .word .whenWord, .condition, .blockLine .repeatWord]) start rest) :
    Passes (repetition item) start rest := by
  simp only [reads_all_cons, reads_all_nil, reads_word] at reads
  obtain ⟨_, rfl, _, rfl, _, test, _, block, rfl⟩ := reads
  have shorter := test.length_le
  simp only [List.length_cons] at small
  refine (expect_passes (by decide)).bind fun _ => (expect_passes (by decide)).bind fun _ => ?_
  refine Passes.bind (condition_passes test) fun _ => ?_
  exact blockLine_passes itemComplete (by decide) (by omega) block

/-- A counting loop, in which each clause is there or left out. -/
theorem counting_passes {start rest : List TokenKind} (small : start.length ≤ size + 1)
    (reads : Reads
      (.all [.word .forWord, .word .leftParen, .optional (.part .expression), .word .comma,
        .optional (.part .expression), .word .comma, .optional (.part .expression),
        .word .rightParen, .word .newline, .blockLine .forWord]) start rest) :
    Passes (counting item) start rest := by
  simp only [reads_all_cons, reads_all_nil, reads_word] at reads
  obtain ⟨_, rfl, _, rfl, _, first, _, rfl, _, test, _, rfl, _, last, _, rfl, _, rfl, _, block,
    rfl⟩ := reads
  have firstShorter := first.length_le
  have testShorter := test.length_le
  have lastShorter := last.length_le
  simp only [List.length_cons] at small firstShorter testShorter lastShorter
  refine (expect_passes (by decide)).bind fun _ => (expect_passes (by decide)).bind fun _ => ?_
  refine Passes.bind (clause_passes (by decide) (by decide) first) fun _ => ?_
  refine (expect_passes (by decide)).bind fun _ => ?_
  refine Passes.bind (clause_passes (by decide) (by decide) test) fun _ => ?_
  refine (expect_passes (by decide)).bind fun _ => ?_
  refine Passes.bind (clause_passes (by decide) (by decide) last) fun _ => ?_
  refine (expect_passes (by decide)).bind fun _ => endLine_passes.bind fun _ => ?_
  exact blockLine_passes itemComplete (by decide) (by omega) block

omit itemComplete in
/-- No statement form starts as an expression does, so an expression line is tried as one. -/
theorem expressionLine_passes {start rest : List TokenKind}
    (reads : Reads (.all [.part .expression, .word .newline]) start rest) :
    Passes (statementOver item) start rest := by
  simp only [reads_all_cons, reads_all_nil, reads_word] at reads
  obtain ⟨_, expression, behind, rfl, rfl⟩ := reads
  obtain ⟨kind, starts, others, rfl⟩ := expression_begins expression
  have line : Passes expressionLine (kind :: others) behind := by
    refine Passes.bind (Expr.parse_passes expression (bars_cons.mpr (by decide))) fun _ => ?_
    exact endLine_passes.bind fun _ => Accepts.pure rfl
  refine Accepts.looking fun token sameKind => ?_
  subst sameKind
  split
  case h_7 => exact line
  case h_1 _ keyword | h_2 _ keyword | h_3 _ keyword | h_4 _ keyword | h_5 _ keyword |
      h_6 _ keyword =>
    rw [keyword] at starts
    exact absurd starts (by decide)

/-- One level of nesting more. -/
theorem statementOver_complete : Complete (size + 1) (statementOver item) := by
  intro start rest small reads bars
  -- All statements but a conditional leave exactly the rest.
  have exactly : ∀ {parser : Parse Stmt}, Passes parser start rest →
      Accepts parser start fun _ left => trim left = trim rest := by
    intro parser passes
    exact passes.weaken fun same => congrArg trim same
  have keyword : ∀ {kind : TokenKind} {phrases : List Phrase},
      Reads (.all (.word kind :: phrases)) start rest → ∃ others, start = kind :: others := by
    intro kind phrases reads
    obtain ⟨others, word, _⟩ := reads_all_cons.mp reads
    exact ⟨others, reads_word.mp word⟩
  rw [reads_part, rule, reads_any] at reads
  obtain ⟨phrase, chosen, reads⟩ := reads
  simp only [List.mem_cons, List.not_mem_nil, or_false] at chosen
  rcases chosen with rfl | rfl | rfl | rfl | rfl | rfl
  · obtain ⟨others, rfl⟩ := keyword reads
    refine Accepts.looking fun token sameKind => ?_
    simp only [sameKind]
    exact exactly (printing_passes reads)
  · obtain ⟨others, rfl⟩ := keyword reads
    refine Accepts.looking fun token sameKind => ?_
    simp only [sameKind]
    exact exactly (scanning_passes reads)
  · exact exactly (expressionLine_passes reads)
  · have production := reads
    rw [reads_part, rule] at production
    obtain ⟨others, rfl⟩ := keyword production
    refine Accepts.looking fun token sameKind => ?_
    simp only [sameKind]
    exact Accepts.counting
      (conditional_accepts itemComplete _ (Nat.le_refl _) small reads bars)
  · obtain ⟨others, rfl⟩ := keyword reads
    refine Accepts.looking fun token sameKind => ?_
    simp only [sameKind]
    exact exactly (repetition_passes itemComplete small reads)
  · obtain ⟨others, rfl⟩ := keyword reads
    refine Accepts.looking fun token sameKind => ?_
    simp only [sameKind]
    exact exactly (counting_passes itemComplete small reads)

end Nested

/-- Every statement is accepted with a bound that is not below its length. -/
theorem statement_complete (size : Nat) : Complete size (statement size) := by
  -- The statements inside a statement are shorter than it, so one bound less is enough for them.
  induction size with
  | zero =>
    intro start rest small _ _
    cases start with
    | nil => exact Accepts.nil
    | cons kind start => simp at small
  | succ size inductionHypothesis => exact statementOver_complete inductionHypothesis

end Stmt

/-! ### Programs -/

namespace Program

/-- Declarations are accepted up to a token that starts no declaration. -/
theorem declarationsFrom_passes {start rest others : List TokenKind} {last : TokenKind}
    (behind : rest = last :: others) (notNewline : last ≠ .newline) (notDeclare : last ≠ .declareWord)
    (reads : Reads (.lines .declaration) start rest) :
    ∀ bound, start.length ≤ bound → Passes (declarationsFrom bound) start rest := by
  -- The lines behind are read first: the kind they begin with is where skipping line ends stops.
  refine Reads.many_rec (motive := fun kinds => ∀ bound, kinds.length ≤ bound →
    Passes (declarationsFrom bound) kinds rest) ?_ ?_ reads
  · intro bound _
    cases bound with
    | zero => exact Accepts.pure rfl
    | succ bound =>
      rw [behind]
      exact Accepts.unchecked (by simpa using notDeclare) (Accepts.pure rfl)
  · intro start middle head tail inductionHypothesis bound fits
    simp only [reads_all_cons, reads_all_nil] at head
    obtain ⟨ended, first, _, blanks, rfl⟩ := head
    obtain ⟨next, listed, others, rfl⟩ := lines_begin declaration_begins tail behind
    have untouched : trim (next :: others) = next :: others := by
      refine trim_cons others (ne_of_mem_of_not_mem listed ?_)
      simpa using notNewline.symm
    have shorter := declaration_begins.length_lt first
    have noLonger := blanks.length_le
    obtain ⟨kind, starts, others', rfl⟩ := declaration_begins first
    cases bound with
    | zero => simp at fits
    | succ bound =>
      apply Accepts.checked starts
      apply (recover_accepts (Stmt.declaration_passes first)).bind
      intro found left passed
      obtain ⟨_, _, rfl⟩ := passed
      refine skipNewlines_passes.bind fun _ => ?_
      rw [trim_eq_of_reads_blank blanks, untouched]
      exact Passes.bind (inductionHypothesis bound (by omega)) fun _ => Accepts.pure rfl

/-- The opening of a program is accepted word by word. -/
theorem header_passes {start rest : List TokenKind}
    (reads : Reads (.all [
      .blank, .word .scriptWord, .word .areaWord, .word .newline,
      .blank, .word .startWord, .word .scriptWord, .word .newline]) start rest) :
    Passes header start rest := by
  simp only [reads_all_cons, reads_all_nil, reads_word] at reads
  obtain ⟨_, blanks, _, rfl, _, rfl, _, rfl, _, between, _, rfl, _, rfl, _, rfl, rfl⟩ := reads
  refine skipNewlines_passes.bind fun _ => ?_
  rw [trim_eq_of_reads_blank blanks, trim_cons _ (by decide)]
  refine Passes.bind
    (expectAll_passes [.scriptWord, .areaWord, .newline] (by decide)) fun _ => ?_
  refine skipNewlines_passes.bind fun _ => ?_
  rw [trim_eq_of_reads_blank between, trim_cons _ (by decide)]
  exact expectAll_passes _ (by decide)

/-- The blank lines in front of the declarations have been passed. -/
theorem declarationsFrom_trim_passes {start rest others : List TokenKind} {last : TokenKind}
    (behind : rest = last :: others) (notNewline : last ≠ .newline) (notDeclare : last ≠ .declareWord)
    (reads : Reads (.all [.blank, .lines .declaration]) start rest) {bound : Nat}
    (fits : (trim start).length ≤ bound) : Passes (declarationsFrom bound) (trim start) rest := by
  simp only [reads_all_cons, reads_all_nil] at reads
  obtain ⟨_, blanks, _, lines, rfl⟩ := reads
  obtain ⟨next, listed, others, rfl⟩ := lines_begin declaration_begins lines behind
  have other : next ≠ .newline := by
    apply ne_of_mem_of_not_mem listed
    simpa using notNewline.symm
  rw [trim_eq_of_reads_blank blanks, trim_cons others other] at fits ⊢
  exact declarationsFrom_passes behind notNewline notDeclare lines _ fits

theorem declarations_passes {start rest others : List TokenKind} {last : TokenKind}
    (behind : rest = last :: others) (notNewline : last ≠ .newline) (notDeclare : last ≠ .declareWord)
    (reads : Reads (.all [.blank, .lines .declaration]) start rest) :
    Passes declarations start rest :=
  skipNewlines_passes.bind fun _ => Accepts.counting
    (declarationsFrom_trim_passes behind notNewline notDeclare reads (Nat.le_refl _))

/-- The closing words are accepted, and the end of the text stays. -/
theorem footer_passes {start rest : List TokenKind}
    (reads : Reads (.all [.word .endWord, .word .scriptWord, .blank, .word .eof]) start rest) :
    Passes footer start (.eof :: rest) := by
  simp only [reads_all_cons, reads_all_nil, reads_word] at reads
  obtain ⟨_, rfl, _, rfl, _, blanks, _, rfl, rfl⟩ := reads
  refine Passes.bind (expectAll_passes [.endWord, .scriptWord] (by decide)) fun _ => ?_
  refine skipNewlines_passes.bind fun _ => ?_
  rw [trim_eq_of_reads_blank blanks, trim_cons _ (by decide)]
  exact Accepts.checked List.mem_cons_self (Accepts.pure rfl)

/-- Whole programs: header, declarations, statements and footer. -/
theorem statements_passes {start rest : List TokenKind}
    (reads : Reads (.part .program) start rest) : Passes statements start (.eof :: rest) := by
  rw [reads_part] at reads
  obtain ⟨behind, opening, reads⟩ := (reads_all_append [
    .blank, .word .scriptWord, .word .areaWord, .word .newline,
    .blank, .word .startWord, .word .scriptWord, .word .newline]).mp reads
  obtain ⟨middle, declared, reads⟩ := (reads_all_append [
    .blank, .lines .declaration]).mp reads
  obtain ⟨ended, executed, closing⟩ := reads_all_cons.mp reads
  have closes : ∃ others, ended = .endWord :: .scriptWord :: others := by
    simp only [reads_all_cons, reads_word] at closing
    obtain ⟨_, rfl, others, rfl, _⟩ := closing
    exact ⟨others, rfl⟩
  obtain ⟨others, rfl⟩ := closes
  obtain ⟨next, listed, following, rfl⟩ := lines_begin statement_begins executed rfl
  refine Passes.bind (header_passes opening) fun _ => ?_
  refine Passes.bind (declarations_passes rfl (ne_of_mem_of_not_mem listed (by decide))
    (ne_of_mem_of_not_mem listed (by decide)) declared) fun found => ?_
  refine Passes.bind (Accepts.counting (Stmt.run_passes (Stmt.statement_complete _) (Nat.le_refl _)
    ⟨⟨_, rfl⟩, Stmt.atEnd_script⟩ (Reads.many_nil _) executed)) fun _ => ?_
  exact Passes.bind (footer_passes closing) fun _ => Accepts.pure rfl

/-- A program that the grammar derives is accepted. -/
theorem parse_of_derives {tokens : List Token} (ended : EndsOnce (tokens.map Token.kind))
    (derivation : Derives (.part .program) (tokens.map Token.kind)) :
    (parse tokens).program.isSome := by
  have front := Cursor.kinds_ofTokens ended
  rw [derives_iff_reads_nil, ← front] at derivation
  obtain ⟨found, reached, ending, quiet, _, _⟩ :=
    statements_passes derivation (Progress.ofTokens tokens) rfl (front ▸ ended)
  rw [parse_eq]
  rw [ending]
  simp [quiet, Progress.ofTokens]

/-- The parser accepts exactly the programs of the grammar. -/
theorem parse_isSome_iff_derives (tokens : List Token)
    (ended : EndsOnce (tokens.map Token.kind)) :
    (parse tokens).program.isSome ↔ Derives (.part .program) (tokens.map Token.kind) :=
  ⟨derives_of_parse ended, parse_of_derives ended⟩

/-- A script with a declaration, a blank line, and a conditional whose branch holds a loop. -/
def sampleKinds : List TokenKind :=
  [.newline, .scriptWord, .areaWord, .newline, .startWord, .scriptWord, .newline,
    .declareWord, .typeName .int, .identifier, .comma, .identifier, .equal, .integerLiteral,
    .newline, .newline,
    .ifWord, .leftParen, .identifier, .equalEqual, .minus, .integerLiteral, .rightParen, .newline,
    .startWord, .ifWord, .newline,
    .forWord, .leftParen, .comma, .comma, .identifier, .equal, .integerLiteral, .rightParen,
    .newline, .startWord, .forWord, .newline, .endWord, .forWord, .newline,
    .endWord, .ifWord, .newline,
    .endWord, .scriptWord, .newline]

/-- The sample as tokens, closed by the end of the text. -/
def sampleTokens : List Token :=
  (sampleKinds ++ [TokenKind.eof]).map fun kind => ⟨kind, kind.label, none, .start⟩

theorem sampleTokens_endsOnce : EndsOnce (sampleTokens.map Token.kind) :=
  ⟨sampleKinds, rfl, by decide⟩

theorem sampleTokens_derives :
    EndsOnce (sampleTokens.map Token.kind) ∧ (parse sampleTokens).program.isSome ∧
      Derives (.part .program) (sampleTokens.map Token.kind) := by
  have accepted : (parse sampleTokens).program.isSome := by decide +kernel
  exact ⟨sampleTokens_endsOnce, accepted,
    (parse_isSome_iff_derives sampleTokens sampleTokens_endsOnce).mp accepted⟩

end Program

end LineScript
