/-
Module: LineScript.Proofs.ExpressionParsing
Purpose: The parser of expressions finds the ladder tree that its tokens spell, and no other.
Trusted boundary: none
Main exports: Climbs, Completes, Links, factor_completes, parse_finds_ladder_trees
-/
import LineScript.Proofs.ExpressionLadder
import LineScript.Proofs.GrammarCompleteness
import LineScript.Proofs.ParserWalk

/-!
The levels of the parser are the steps of the ladder. One half of the argument climbs them with the
parser: what a level finds without an error fits its step. The other half starts from a tree that
fits a step: its tokens are a first operand and some links, and the level takes the operand, then
one link after the other, and stops in front of an operator of a lower step. That two trees with the
same tokens are equal follows, because the parser finds only one.
-/

namespace LineScript.Expr

open Parse

/-! ### The levels of the parser -/

/-- The operators that a level of the parser looks for are those of a step of the ladder, and the
nodes it builds join their operands. -/
structure Step (level : Nat) (operators : List TokenKind) (node : Expr → Token → Expr → Expr) :
    Prop extends Joins level node where
  listed : ∀ kind : TokenKind, kind ∈ operators ↔ kind.strength = level
  positive : 0 < level

/-- The end of the text is no operator. -/
theorem Step.inside {level : Nat} {operators : List TokenKind} {node : Expr → Token → Expr → Expr}
    (step : Step level operators node) : .eof ∉ operators := by
  intro last
  exact Nat.ne_of_lt step.positive ((step.listed .eof).mp last)

theorem productStep : Step 6 [.star, .slash] .binary where
  toJoins := joins_binary (by decide) (by decide)
  listed kind := by cases kind <;> simp [TokenKind.strength]
  positive := by decide

theorem sumStep : Step 5 [.plus, .minus, .concat, .modulo] .binary where
  toJoins := joins_binary (by decide) (by decide)
  listed kind := by cases kind <;> simp [TokenKind.strength]
  positive := by decide

theorem comparisonStep : Step 4 [.greater, .greaterEqual, .less, .lessEqual] .binary where
  toJoins := joins_binary (by decide) (by decide)
  listed kind := by cases kind <;> simp [TokenKind.strength]
  positive := by decide

theorem equalityStep : Step 3 [.equalEqual, .notEqual] .binary where
  toJoins := joins_binary (by decide) (by decide)
  listed kind := by cases kind <;> simp [TokenKind.strength]
  positive := by decide

theorem conjunctionStep : Step 2 [.andWord] .logical where
  toJoins := joins_logical (by decide) (by decide)
  listed kind := by cases kind <;> simp [TokenKind.strength]
  positive := by decide

theorem disjunctionStep : Step 1 [.orWord] .logical where
  toJoins := joins_logical (by decide) (by decide)
  listed kind := by cases kind <;> simp [TokenKind.strength]
  positive := by decide

/-! ### What is found fits -/

/-- What the parser finds without an error fits a step of the ladder. -/
def Climbs (level : Nat) (parser : Parse Expr) : Prop :=
  Walks parser (fun expr passed reported => reported = [] → Fits level expr passed)
    fun _ _ _ => True

section Climbing

variable {level : Nat} {operators : List TokenKind} {node : Expr → Token → Expr → Expr}

/-- The links of a chain keep its left side on the step. The left side need only fit if it was found
without an error. -/
theorem chainFrom_climbs (step : Step level operators node) {operand : Parse Expr}
    (operandClimbs : Climbs (level + 1) operand) {clean : Prop} (bound : Nat) (left : Expr)
    (front : List Token) (fits : clean → Fits level left front) :
    Walks (chainFrom operators node operand bound left)
      (fun expr passed reported => clean → reported = [] → Fits level expr (front ++ passed))
      fun _ _ _ => True := by
  induction bound generalizing clean left front with
  | zero =>
    apply Walks.pure
    intro holds _
    rw [List.append_nil]
    exact fits holds
  | succ bound inductionHypothesis =>
    apply (accept_walks step.inside).bind
    intro found passed earlier accepted
    obtain ⟨rfl, shape⟩ := accepted
    cases found with
    | none =>
      subst shape
      apply Walks.pure
      intro holds _
      simpa using fits holds
    -- The operator joins what was read so far with an operand of a higher level, to the left.
    | some operator =>
      obtain ⟨listed, rfl⟩ := shape
      have stands := (step.listed operator.kind).mp listed
      apply operandClimbs.bind
      intro right second between rightFits
      -- What is built so far fits only while nothing was reported, the operand's reports included.
      have joined : clean ∧ between = [] →
          Fits level (node left operator right) (front ++ operator :: second) := by
        rintro ⟨holds, quiet⟩
        exact step.compose stands (fits holds) (rightFits quiet)
      apply (inductionHypothesis _ _ joined).finding
      intro expr passed reported concludes holds silent
      rw [List.nil_append] at silent
      obtain ⟨quiet, later⟩ := List.append_eq_nil_iff.mp silent
      simpa using concludes ⟨holds, quiet⟩ later

/-- A level of the parser climbs as the level of the ladder does: operands of the next level,
chained to the left. -/
theorem chain_climbs (step : Step level operators node) {operand : Parse Expr}
    (operandClimbs : Climbs (level + 1) operand) :
    Climbs level (chain operators node operand) := by
  apply operandClimbs.bind
  intro first front earlier firstFits
  apply Walks.counting
  intro bound
  have fits : earlier = [] → Fits level first front :=
    fun quiet => (firstFits quiet).lower (Nat.le_succ level)
  apply (chainFrom_climbs step operandClimbs bound first front fits).finding
  intro expr passed reported concludes silent
  obtain ⟨quiet, later⟩ := List.append_eq_nil_iff.mp silent
  exact concludes quiet later

end Climbing

section Levels

variable {factor : Parse Expr} (factorClimbs : Climbs tightest factor)

include factorClimbs

/-- What is parsed as a disjunction fits above assignment if what is parsed as a factor fits on the
tightest level. -/
theorem disjunction_climbs : Climbs 1 (disjunction factor) := by
  have products : Climbs 6 (product factor) := chain_climbs productStep factorClimbs
  have sums : Climbs 5 (sum factor) := chain_climbs sumStep products
  have comparisons : Climbs 4 (comparison factor) := chain_climbs comparisonStep sums
  have equalities : Climbs 3 (equality factor) := chain_climbs equalityStep comparisons
  have conjunctions : Climbs 2 (conjunction factor) := chain_climbs conjunctionStep equalities
  exact chain_climbs disjunctionStep conjunctions

/-- What is parsed as an assignment fits on the lowest level. -/
theorem assignment_climbs (bound : Nat) : Climbs 0 (assignment factor bound) := by
  have targets := disjunction_climbs factorClimbs
  induction bound with
  | zero =>
    apply Walks.finding targets
    intro expr passed reported fits silent
    exact (fits silent).lower (Nat.zero_le 1)
  | succ bound inductionHypothesis =>
    apply targets.bind
    intro target front earlier targetFits
    apply (accept_walks (by decide)).bind
    intro found passed between accepted
    obtain ⟨rfl, shape⟩ := accepted
    cases found with
    | none =>
      subst shape
      apply Walks.pure
      intro silent
      simp only [List.append_nil] at silent ⊢
      exact (targetFits silent).lower (Nat.zero_le 1)
    | some sign =>
      obtain ⟨listed, rfl⟩ := shape
      have equals : sign.kind = .equal := List.mem_singleton.mp listed
      apply inductionHypothesis.bind
      intro value behind later valueFits
      cases target with
      | reference name =>
        apply Walks.pure
        intro silent
        simp only [List.append_nil, List.nil_append, List.append_eq_nil_iff] at silent
        obtain ⟨targetLadder, _, targetSpelled⟩ := targetFits silent.1
        obtain ⟨valueLadder, _, valueSpelled⟩ := valueFits silent.2
        cases targetSpelled
        simp only [List.append_nil]
        exact ⟨⟨targetLadder, valueLadder⟩, Nat.zero_le _, .assign equals valueSpelled⟩
      | literal | assign | unary | binary | logical | group =>
        -- The report about the target is an error, so nothing is left to show.
        apply (report_walks sign _).bind
        intro _ nothing report same
        obtain ⟨rfl, rfl⟩ := same
        apply Walks.pure
        intro silent
        simp at silent

end Levels

/-- A token that is an expression by itself. -/
theorem atom_climbs {start : Progress} {expr : Expr} (closed : start.cursor.Closed)
    (inside : start.cursor.current.kind ≠ .eof)
    (fits : Fits tightest expr [start.cursor.current]) :
    WalksFrom start (do let _ ← advance; return expr)
      (fun found passed reported => reported = [] → Fits tightest found passed)
      fun _ _ _ => True := by
  apply WalksFrom.passing closed inside
  apply Walks.pure
  intro _
  exact fits

/-- An operator in front of a tightest operand is a tightest expression. -/
theorem sign_climbs {start : Progress} {operand : Parse Expr} (closed : start.cursor.Closed)
    (listed : start.cursor.current.kind ∈ [TokenKind.notWord, .minus, .plus])
    (operandClimbs : Climbs tightest operand) :
    WalksFrom start
      (do let _ ← advance; let inner ← operand; return .unary start.cursor.current inner)
      (fun found passed reported => reported = [] → Fits tightest found passed)
      fun _ _ _ => True := by
  apply WalksFrom.passing closed (ne_of_mem_of_not_mem listed (by decide))
  apply operandClimbs.bind
  intro inner passed earlier innerFits
  apply Walks.pure
  intro silent
  simp only [List.append_nil] at silent ⊢
  obtain ⟨ladder, top, spelled⟩ := innerFits silent
  exact ⟨⟨listed, Nat.le_antisymm inner.strength_le top, ladder⟩, Nat.le_refl _, .unary spelled⟩

/-- Parentheses make any expression a tightest one. -/
theorem group_climbs {start : Progress} {inner : Parse Expr} (closed : start.cursor.Closed)
    (opens : start.cursor.current.kind = .leftParen) (innerClimbs : Climbs 0 inner) :
    WalksFrom start
      (do
        let _ ← advance
        let expr ← inner
        let _ ← expect .rightParen "Expected ')' after expression"
        return .group expr)
      (fun found passed reported => reported = [] → Fits tightest found passed)
      fun _ _ _ => True := by
  apply WalksFrom.passing closed (by rw [opens]; decide)
  apply innerClimbs.bind
  intro expr front earlier exprFits
  apply (expect_walks _ (by decide) (fun _ => trivial)).bind
  intro closing passed between closes
  obtain ⟨closes, rfl, rfl⟩ := closes
  apply Walks.pure
  intro silent
  simp only [List.append_nil] at silent ⊢
  obtain ⟨ladder, _, spelled⟩ := exprFits silent
  exact ⟨ladder, Nat.le_refl _, .group opens closes spelled⟩

/-- What is parsed as a factor fits on the tightest level. -/
theorem factor_climbs (bound : Nat) : Climbs tightest (factor bound) := by
  -- An operand behind a sign and an expression in parentheses both have one bound less.
  induction bound with
  | zero => exact fail_walks _ fun _ => trivial
  | succ bound inductionHypothesis =>
    apply Walks.looking
    intro start closed
    split
    case h_1 _ sign | h_2 _ sign | h_3 _ sign =>
      exact sign_climbs closed (by simp [sign]) inductionHypothesis
    case h_4 _ atom | h_5 _ atom | h_6 _ atom | h_7 _ atom | h_8 _ atom | h_9 _ atom =>
      apply atom_climbs closed (by simp [atom])
      exact ⟨trivial, Nat.le_refl _, .literal (.inl ⟨by simp [atom], rfl⟩)⟩
    case h_10 _ missing =>
      apply atom_climbs closed (by simp [missing])
      exact ⟨trivial, Nat.le_refl _, .literal (.inr (.inl ⟨missing, rfl⟩))⟩
    case h_11 _ lineEnd =>
      apply atom_climbs closed (by simp [lineEnd])
      exact ⟨trivial, Nat.le_refl _, .literal (.inr (.inr ⟨lineEnd, rfl⟩))⟩
    case h_12 _ name =>
      apply atom_climbs closed (by simp [name])
      exact ⟨name, Nat.le_refl _, .reference _⟩
    case h_13 _ opens =>
      exact group_climbs closed opens (assignment_climbs inductionHypothesis bound)
    case h_14 => exact fail_walks _ (fun _ => trivial) start closed

theorem parse_climbs : Climbs 0 parse :=
  Walks.counting fun bound => assignment_climbs (factor_climbs bound) bound

/-! ### What fits is found -/

/-- What stands behind a tree on a step does not continue it. -/
def Follows (level : Nat) (rest : List Token) : Prop :=
  ∃ next others, rest = next :: others ∧ next.kind.strength < level

/-- What an expression ends in front of is not empty: the end of the text is always there. -/
theorem Follows.ne_nil {level : Nat} {rest : List Token} (follows : Follows level rest) :
    rest ≠ [] := by
  obtain ⟨next, others, rfl, _⟩ := follows
  exact List.cons_ne_nil next others

theorem follows_cons {level : Nat} {next : Token} {others : List Token} :
    Follows level (next :: others) ↔ next.kind.strength < level := by
  constructor
  · rintro ⟨_, _, same, weak⟩
    cases same
    exact weak
  · intro weak
    exact ⟨next, others, rfl, weak⟩

/-- The parser finds every tree on a step that is spelled with at most so many tokens. -/
def Completes (size level : Nat) (parser : Parse Expr) : Prop :=
  ∀ ⦃expr tokens rest⦄, tokens.length ≤ size → Fits level expr tokens → Follows level rest →
    Takes parser tokens rest expr

/-- From the left side on, operators of a step and their right operands make up an expression. -/
inductive Links (level : Nat) (node : Expr → Token → Expr → Expr) :
    Expr → List Token → Expr → Prop where
  | done (expr : Expr) : Links level node expr [] expr
  | link {left right result : Expr} {operator : Token} {second others : List Token}
      (stands : operator.kind.strength = level) (fits : Fits (level + 1) right second)
      (more : Links level node (node left operator right) others result) :
      Links level node left (operator :: (second ++ others)) result

section Chains

variable {level size : Nat} {operators : List TokenKind} {node : Expr → Token → Expr → Expr}

/-- One more operator and operand go to the right end of a chain. -/
theorem Links.snoc {first left right : Expr} {operator : Token} {tokens second : List Token}
    (links : Links level node first tokens left) (stands : operator.kind.strength = level)
    (fits : Fits (level + 1) right second) :
    Links level node first (tokens ++ operator :: second) (node left operator right) := by
  induction links with
  | done expr => simpa using Links.link stands fits (.done (node expr operator right))
  | link standsBefore fitsBefore _ inductionHypothesis =>
    simpa using Links.link standsBefore fitsBefore inductionHypothesis

/-- A tree on a step is a first operand and the links behind it. -/
theorem Joins.exists_links (joins : Joins level node) {expr : Expr} {tokens : List Token}
    (fits : Fits level expr tokens) :
    ∃ first front links, tokens = front ++ links ∧ Fits (level + 1) first front ∧
      Links level node first links expr := by
  induction count : tokens.length using Nat.strongRecOn generalizing expr tokens with
  | ind length inductionHypothesis =>
    rcases joins.decompose fits with alone | ⟨left, operator, right, before, second, rfl, rfl,
      stands, leftFits, rightFits⟩
    · exact ⟨expr, tokens, [], (List.append_nil _).symm, alone, .done expr⟩
    · have shorter : before.length < length := by
        simp only [← count, List.length_append, List.length_cons]
        omega
      obtain ⟨first, front, links, rfl, firstFits, linked⟩ :=
        inductionHypothesis before.length shorter leftFits rfl
      exact ⟨first, front, links ++ operator :: second, List.append_assoc _ _ _, firstFits,
        linked.snoc stands rightFits⟩

/-- Behind an operand stands one of the step's operators, or what stands behind the chain. -/
theorem Links.follows {left expr : Expr} {tokens rest : List Token}
    (links : Links level node left tokens expr) (follows : Follows level rest) :
    Follows (level + 1) (tokens ++ rest) := by
  cases links with
  | done =>
    obtain ⟨next, others, rfl, weak⟩ := follows
    exact follows_cons.mpr (Nat.lt_succ_of_lt weak)
  | link stands _ _ => exact follows_cons.mpr (stands ▸ Nat.lt_succ_self _)

/-- The loop follows a chain link by link and stops where it is told to. -/
theorem chainFrom_takes (step : Step level operators node) {operand : Parse Expr}
    (operandCompletes : Completes size (level + 1) operand) {left expr : Expr}
    {tokens rest : List Token} (links : Links level node left tokens expr)
    (follows : Follows level rest) {bound : Nat} (enough : tokens.length ≤ bound)
    (small : tokens.length ≤ size) :
    Takes (chainFrom operators node operand bound left) tokens rest expr := by
  induction links generalizing bound with
  | done expr =>
    cases bound with
    | zero => exact Takes.pure expr rest
    | succ bound =>
      obtain ⟨next, others, rfl, weak⟩ := follows
      have unlisted : next.kind ∉ operators :=
        fun listed => Nat.ne_of_lt weak ((step.listed next.kind).mp listed)
      exact (accept_leaves unlisted).bind_last (Takes.pure expr _)
  | @link left right result operator second others stands fits more inductionHypothesis =>
    simp only [List.length_cons, List.length_append] at enough small
    cases bound with
    | zero => omega
    | succ bound =>
      have listed : operator.kind ∈ operators := (step.listed operator.kind).mpr stands
      have operandTakes : Takes operand second (others ++ rest) right :=
        operandCompletes (by omega) fits (more.follows follows)
      have accepts : Takes (accept operators) [operator] (second ++ others ++ rest)
          (some operator) :=
        accept_takes step.inside listed (by simp [follows.ne_nil])
      exact accepts.bind (operandTakes.bind (inductionHypothesis (by omega) (by omega)))

/-- A level that is told where its operand ends finds the chain. -/
theorem chain_completes (step : Step level operators node) {operand : Parse Expr}
    (operandCompletes : Completes size (level + 1) operand) :
    Completes size level (chain operators node operand) := by
  intro expr tokens rest small fits follows
  obtain ⟨first, front, links, rfl, firstFits, linked⟩ := step.toJoins.exists_links fits
  rw [List.length_append] at small
  have operandTakes : Takes operand front (links ++ rest) first :=
    operandCompletes (by omega) firstFits (linked.follows follows)
  have onward : Takes (chainFrom operators node operand (links ++ rest).length first) links rest
      expr := chainFrom_takes step operandCompletes linked follows (by simp) (by omega)
  exact operandTakes.bind (Takes.counting onward)

end Chains

/-! ### The bottom and the top -/

/-- No expression is spelled by nothing. -/
theorem Spelled.ne_nil {expr : Expr} {tokens : List Token} (spelled : expr.Spelled tokens) :
    tokens ≠ [] := by
  cases spelled <;> simp

/-- A following token that neither joins what is before it to more nor assigns. -/
theorem strength_of_not_continuation {kind : TokenKind} (ends : kind ∉ continuations) :
    kind.strength = 0 ∧ kind ≠ .equal := by
  cases kind <;> simp_all [continuations, operators, TokenKind.strength]

section Levels

variable {size : Nat} {factor : Parse Expr} (factorCompletes : Completes size tightest factor)

include factorCompletes

/-- What fits above assignment is found as a disjunction if what fits on the tightest level is found
as a factor. -/
theorem disjunction_completes : Completes size 1 (disjunction factor) := by
  have products : Completes size 6 (product factor) := chain_completes productStep factorCompletes
  have sums : Completes size 5 (sum factor) := chain_completes sumStep products
  have comparisons : Completes size 4 (comparison factor) := chain_completes comparisonStep sums
  have equalities : Completes size 3 (equality factor) := chain_completes equalityStep comparisons
  have conjunctions : Completes size 2 (conjunction factor) :=
    chain_completes conjunctionStep equalities
  exact chain_completes disjunctionStep conjunctions

/-- An expression that fits on the lowest level is found, an assignment through its name and its
equals sign. -/
theorem assignment_takes {bound : Nat} {expr : Expr} {tokens others : List Token} {next : Token}
    (enough : tokens.length ≤ bound) (small : tokens.length ≤ size) (fits : Fits 0 expr tokens)
    (ends : next.kind ∉ continuations) :
    Takes (assignment factor bound) tokens (next :: others) expr := by
  obtain ⟨weak, noSign⟩ := strength_of_not_continuation ends
  induction bound generalizing expr tokens with
  | zero =>
    have nothing : tokens = [] := List.eq_nil_of_length_eq_zero (Nat.le_zero.mp enough)
    exact absurd nothing fits.spelled.ne_nil
  | succ bound inductionHypothesis =>
    rcases fits.bottom_cases with above | ⟨name, sign, value, behind, rfl, rfl, named, equals,
      valueFits⟩
    · have follows : Follows 1 (next :: others) := follows_cons.mpr (by omega)
      have target := disjunction_completes factorCompletes small above follows
      have noMore : Takes (accept [.equal]) [] (next :: others) none :=
        accept_leaves (by simpa using noSign)
      exact target.bind_last (noMore.bind_last (Takes.pure expr _))
    · simp only [List.length_cons] at enough small
      have target : Takes (disjunction factor) [name] ([sign] ++ behind ++ next :: others)
          (.reference name) := by
        apply disjunction_completes factorCompletes (by simp; omega)
        · exact ⟨named, by simp [strength, tightest], .reference name⟩
        · exact follows_cons.mpr (by simp [equals, TokenKind.strength])
      have accepts : Takes (accept [.equal]) [sign] (behind ++ next :: others) (some sign) :=
        accept_takes (by decide) (by simp [equals]) (by simp)
      have takesValue := inductionHypothesis (by omega) (by omega) valueFits
      apply target.bind
      apply accepts.bind
      apply takesValue.bind_last
      exact Takes.pure (assign name value) _

end Levels

/-- A token that is an expression by itself. -/
theorem atom_takes {expr : Expr} {token : Token} {rest : List Token} (inside : token.kind ≠ .eof)
    (more : rest ≠ []) : Takes (do let _ ← advance; return expr) [token] rest expr :=
  (advance_takes inside more).bind_last (Takes.pure expr rest)

/-- A literal is found where its token stands. -/
theorem literal_takes {value : Value} {token : Token} {rest : List Token}
    (denotes : token.Denotes value) (more : rest ≠ []) (bound : Nat) :
    Takes (factor (bound + 1)) [token] rest (.literal value) := by
  apply Takes.looking rfl
  rcases denotes with ⟨listed, rfl⟩ | ⟨missing, rfl⟩ | ⟨lineEnd, rfl⟩
  · simp only [List.mem_cons, List.not_mem_nil, or_false] at listed
    rcases listed with kind | kind | kind | kind | kind | kind
    all_goals
      simp only [kind]
      exact atom_takes (by simp [kind]) more
  · simp only [missing]
    exact atom_takes (by simp [missing]) more
  · simp only [lineEnd]
    exact atom_takes (by simp [lineEnd]) more

/-- An operator in front of an operand that is found. -/
theorem sign_takes {operator : Token} {operand : Expr} {tokens rest : List Token} {bound : Nat}
    (listed : operator.kind ∈ [TokenKind.notWord, .minus, .plus])
    (takes : Takes (factor bound) tokens rest operand) (more : rest ≠ []) :
    Takes (factor (bound + 1)) (operator :: tokens) rest (.unary operator operand) := by
  have passes : Takes advance [operator] (tokens ++ rest) operator :=
    advance_takes (ne_of_mem_of_not_mem listed (by decide)) (by simp [more])
  apply Takes.looking rfl
  simp only [List.mem_cons, List.not_mem_nil, or_false] at listed
  rcases listed with kind | kind | kind
  all_goals
    simp only [kind]
    apply passes.bind
    exact takes.bind_last (Takes.pure (unary operator operand) rest)

/-- An expression in parentheses that is found. -/
theorem group_takes {opening closing : Token} {inner : Expr} {tokens rest : List Token}
    {bound : Nat} (opens : opening.kind = .leftParen) (closes : closing.kind = .rightParen)
    (takes : Takes (assignment (factor bound) bound) tokens (closing :: rest) inner)
    (more : rest ≠ []) :
    Takes (factor (bound + 1)) (opening :: (tokens ++ [closing])) rest (.group inner) := by
  have passes : Takes advance [opening] (tokens ++ [closing] ++ rest) opening :=
    advance_takes (by simp [opens]) (by simp)
  have finishes : Takes (expect .rightParen "Expected ')' after expression") [closing] rest
      closing := expect_takes (by decide) closes more
  apply Takes.looking rfl
  simp only [opens]
  apply passes.bind
  apply Takes.bind takes
  exact finishes.bind_last (Takes.pure (group inner) rest)

/-- Factors nest at most as deep as they have tokens. -/
theorem factor_completes (size : Nat) : Completes size tightest (factor size) := by
  induction size with
  | zero =>
    intro expr tokens rest small fits _
    have nothing : tokens = [] := List.eq_nil_of_length_eq_zero (Nat.le_zero.mp small)
    exact absurd nothing fits.spelled.ne_nil
  | succ size inductionHypothesis =>
    intro expr tokens rest small fits follows
    rcases fits.top_cases with ⟨value, token, rfl, rfl, denotes⟩ | ⟨name, rfl, rfl, named⟩ |
      ⟨operator, operand, others, rfl, rfl, listed, operandFits⟩ |
      ⟨opening, inner, closing, others, rfl, rfl, opens, closes, innerFits⟩
    · exact literal_takes denotes follows.ne_nil size
    · apply Takes.looking rfl
      simp only [named]
      exact atom_takes (by simp [named]) follows.ne_nil
    · simp only [List.length_cons] at small
      have operandTakes := inductionHypothesis (by omega) operandFits follows
      exact sign_takes listed operandTakes follows.ne_nil
    · simp only [List.length_cons, List.length_append, List.length_nil] at small
      have innerTakes : Takes (assignment (factor size) size) others (closing :: rest) inner :=
        assignment_takes inductionHypothesis (by omega) (by omega) innerFits
          (by rw [closes]; decide)
      exact group_takes opens closes innerTakes follows.ne_nil

/-- The parser finds a tree in the tokens that spell it, unless they go on. -/
theorem parse_takes {expr : Expr} {tokens others : List Token} {next : Token}
    (ladder : expr.Ladder) (spelled : expr.Spelled tokens) (ends : next.kind ∉ continuations) :
    Takes parse tokens (next :: others) expr := by
  have fits : Fits 0 expr tokens := ⟨ladder, Nat.zero_le _, spelled⟩
  apply Takes.counting
  exact assignment_takes (factor_completes _) (by simp) (by simp) fits ends

/-- Tokens spell at most one tree that respects the ladder. -/
theorem eq_of_spelled {one two : Expr} {tokens : List Token} (oneLadder : one.Ladder)
    (twoLadder : two.Ladder) (spellsOne : one.Spelled tokens) (spellsTwo : two.Spelled tokens) :
    one = two := by
  let start := Progress.ofTokens (tokens ++ [Token.endAt Position.start])
  have faces : start.cursor.ahead = tokens ++ [Token.endAt Position.start] :=
    Cursor.ahead_ofTokens (by simp)
  have ends : (Token.endAt Position.start).kind ∉ continuations := by decide
  obtain ⟨reached, first, _⟩ := parse_takes oneLadder spellsOne ends start faces
  obtain ⟨mirror, second, _⟩ := parse_takes twoLadder spellsTwo ends start faces
  cases first.symm.trans second
  rfl

/-- The parser of expressions, from any place in tokens that end. What it finds without an error is
a tree that respects the ladder, and the tokens it has passed spell the tree. Conversely it finds
any such tree in tokens that spell it, with no error, and stops at the token behind them if that
neither joins nor assigns. No other tree that respects the ladder is spelled by the same tokens. -/
theorem parse_finds_ladder_trees (start : Progress) (closed : start.cursor.Closed) :
    (∀ expr reached, parse start = .ok expr reached → reached.errors = start.errors →
      expr.Ladder ∧ ∃ passed, start.Walk passed [] reached ∧ expr.Spelled passed) ∧
    (∀ expr passed next others, expr.Ladder → expr.Spelled passed → next.kind ∉ continuations →
      start.cursor.ahead = passed ++ next :: others →
      ∃ reached, parse start = .ok expr reached ∧ start.Walk passed [] reached ∧
        reached.cursor.current = next) ∧
    ∀ one two : Expr, ∀ tokens, one.Ladder → two.Ladder → one.Spelled tokens →
      two.Spelled tokens → one = two := by
  constructor
  · intro expr reached found quiet
    have climbs := parse_climbs start closed
    unfold WalksFrom at climbs
    rw [found] at climbs
    obtain ⟨passed, reported, walk, fits⟩ := climbs
    have silent : reported = [] := by
      have kept := walk.errors
      rw [quiet] at kept
      exact List.append_right_eq_self.mp kept.symm
    subst silent
    obtain ⟨ladder, _, spelled⟩ := fits rfl
    exact ⟨ladder, passed, walk, spelled⟩
  constructor
  · intro expr passed next others ladder spelled ends faces
    obtain ⟨reached, found, walk⟩ := parse_takes ladder spelled ends start faces
    have left : reached.cursor.ahead = next :: others := walk.moved.ahead_eq faces
    exact ⟨reached, found, walk, (List.cons.inj left).1⟩
  · intro one two tokens oneLadder twoLadder spellsOne spellsTwo
    exact eq_of_spelled oneLadder twoLadder spellsOne spellsTwo

/-- The start of a line that holds operators of all steps. -/
def sampleStart : Progress :=
  Progress.ofTokens (lex "x = y = a - b - 2 * -c OR NOT (z = 1) & $ <> NULL AND d < e\n").tokens

/-- The tree of the sample, in prefix notation. -/
def sampleRendering : String :=
  "(= x (= y (OR (- (- a b) (* 2 (- c))) " ++
    "(AND (<> (& (NOT (group (= z 1))) '\\n') NULL) (< d e)))))"

theorem sampleStart_finds_ladder_tree :
    sampleStart.cursor.Closed ∧ ∃ expr passed reached,
      parse sampleStart = .ok expr reached ∧ reached.errors = [] ∧
      reached.cursor.current.kind = .newline ∧ expr.Ladder ∧ expr.Spelled passed ∧
      sampleStart.Walk passed [] reached ∧ expr.render = sampleRendering := by
  have closed : sampleStart.cursor.Closed := ⟨Token.endAt ⟨2, 1⟩, by decide +kernel, rfl⟩
  have seen : (match parse sampleStart with
      | .ok expr reached => some (reached.errors, reached.cursor.current.kind, expr.render)
      | .error _ _ => none) = some ([], .newline, sampleRendering) := by decide +kernel
  cases ending : parse sampleStart with
  | error error reached =>
    rw [ending] at seen
    cases seen
  | ok expr reached =>
    simp only [ending, Option.some.injEq, Prod.mk.injEq] at seen
    obtain ⟨quiet, stopped, rendered⟩ := seen
    obtain ⟨ladder, passed, walk, spelled⟩ :=
      (parse_finds_ladder_trees sampleStart closed).1 expr reached ending quiet
    exact ⟨closed, expr, passed, reached, rfl, quiet, stopped, ladder, spelled, walk, rendered⟩

end LineScript.Expr
