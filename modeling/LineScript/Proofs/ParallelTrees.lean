/-
Module: LineScript.Proofs.ParallelTrees
Purpose: The trees that parsers find side by side.
Trusted boundary: none
Main exports: Stmt.Related, statements_parallel, parse_related
-/
import LineScript.Program
import LineScript.Proofs.ParallelParsing
import LineScript.Proofs.TreeTokens

/-!
The judgement of parsers side by side is carried through all parsers, from expressions to whole
programs. On lists of tokens that match, the one parser finds a tree made of fine tokens, and the
other one the same tree with its tokens replaced. Every form of the language ends its line, and
blank lines are passed before anything else is looked at.

With the list itself as its match, this says where the tokens of a tree come from.
-/

namespace LineScript

open Parse

section Trees

variable (pairing : Pairing)

/-- The first expression is made of fine tokens, and the second is the first with its tokens
replaced. -/
def Expr.Related (one two : Expr) : Prop :=
  one.MadeOf pairing.fine ∧ two = one.mapTokens pairing.replace

/-- So it is with two declared names. -/
def Declarator.Related (one two : Declarator) : Prop :=
  one.MadeOf pairing.fine ∧ two = one.mapTokens pairing.replace

/-- So it is with two statements. -/
def Stmt.Related (one two : Stmt) : Prop :=
  one.MadeOf pairing.fine ∧ two = one.mapTokens pairing.replace

/-- Parsers that pass at least one token, started where at most so many are left. -/
def Passing {α : Type} (bounds : Nat × Nat) (parser mirrored : Parse α)
    (leave : Cursor → Cursor → Prop) (related : α → α → Prop) : Prop :=
  ∀ room : Nat × Nat, room ≤ bounds →
    Parallel pairing (Cursor.Abreast pairing) room parser mirrored leave (Cursor.less room) related

end Trees

variable {pairing : Pairing}

/-- Inside a line the token on the other side is the one that the pairing puts in place of this
one. -/
theorem Token.Same.replaced {kinds : List TokenKind} {one two : Token}
    (same : one.Same pairing kinds two) (inLine : ∀ kind ∈ kinds, ¬ kind.EndsLine) :
    two = pairing.replace one :=
  same.1.replaced (inLine _ same.2)

/-- A single token of a kind within a line. -/
theorem Token.Same.only {kind : TokenKind} {one two : Token} (same : one.Same pairing [kind] two)
    (inLine : ¬ kind.EndsLine) : (pairing.fine one ∧ one.kind = kind) ∧ two = pairing.replace one :=
  ⟨⟨same.1.fine, List.mem_singleton.mp same.2⟩, same.replaced (by simpa using inLine)⟩

namespace Expr

/-! ### Expressions -/

section Levels

variable {operators : List TokenKind} {node : Expr → Token → Expr → Expr}
  {operand mirrored : Parse Expr} {bounds : Nat × Nat}

/-- Two loops of a level go abreast, operator by operator, and build related trees. -/
theorem chainFrom_parallel (inLine : ∀ kind ∈ operators, ¬ kind.EndsLine)
    (builds : ∀ {left left' operator operator' right right'}, Related pairing left left' →
      operator.Same pairing operators operator' → Related pairing right right' →
      Related pairing (node left operator right) (node left' operator' right'))
    (operands : Passing pairing bounds operand mirrored (Cursor.Abreast pairing) (Related pairing))
    (bound other : Nat) {room : Nat × Nat} (inside : room ≤ bounds) (fits : room ≤ (bound, other))
    {left left' : Expr} (leftRelated : Related pairing left left') :
    InLine pairing room (chainFrom operators node operand bound left)
      (chainFrom operators node mirrored other left') room (Related pairing) := by
  induction bound generalizing other room left left' with
  | zero => exact .of_no_room (.inl (Nat.le_zero.mp fits.1))
  | succ bound inductionHypothesis =>
    cases other with
    | zero => exact .of_no_room (.inr (Nat.le_zero.mp fits.2))
    | succ other =>
      refine .accepting inLine (.pure leftRelated) fun operator operator' same => .stay ?_
      refine .bind (.stay (operands _ (Cursor.less_le_of_le inside))) ?_
      intro right right' rightRelated
      exact inductionHypothesis other (Cursor.less_le_of_le inside) (Cursor.less_le_less fits)
        (builds leftRelated same rightRelated)

/-- Two parsers of a level go abreast, given that their operands do. -/
theorem chain_parallel (inLine : ∀ kind ∈ operators, ¬ kind.EndsLine)
    (builds : ∀ {left left' operator operator' right right'}, Related pairing left left' →
      operator.Same pairing operators operator' → Related pairing right right' →
      Related pairing (node left operator right) (node left' operator' right'))
    (operands : Passing pairing bounds operand mirrored (Cursor.Abreast pairing)
      (Related pairing)) :
    Passing pairing bounds (chain operators node operand) (chain operators node mirrored)
      (Cursor.Abreast pairing) (Related pairing) := by
  intro room inside
  refine .bind (operands room inside) fun left left' leftRelated => ?_
  refine .counting fun one two counted => ?_
  have chained := chainFrom_parallel inLine builds operands one two
    (counted.trans (Cursor.less_le_of_le inside)) le_rfl leftRelated
  exact .weaken chained id id counted

end Levels

/-- An operation is related to the one of the replaced parts: its operator is no name and no
literal. -/
theorem binary_related {operators : List TokenKind} {left left' right right' : Expr}
    {operator operator' : Token} (inLine : ∀ kind ∈ operators, ¬ kind.EndsLine)
    (infixes : ∀ kind ∈ operators, kind ∈ Operator.infixKinds)
    (leftRelated : Related pairing left left') (same : operator.Same pairing operators operator')
    (rightRelated : Related pairing right right') :
    Related pairing (.binary left operator right) (.binary left' operator' right') := by
  refine ⟨⟨⟨same.1.fine, infixes _ same.2⟩, leftRelated.1, rightRelated.1⟩, ?_⟩
  rw [leftRelated.2, rightRelated.2, same.replaced inLine]
  rfl

/-- A connective of truth values likewise. -/
theorem logical_related {operators : List TokenKind} {left left' right right' : Expr}
    {operator operator' : Token} (inLine : ∀ kind ∈ operators, ¬ kind.EndsLine)
    (connectives : ∀ kind ∈ operators, kind ∈ connectiveKinds)
    (leftRelated : Related pairing left left') (same : operator.Same pairing operators operator')
    (rightRelated : Related pairing right right') :
    Related pairing (.logical left operator right) (.logical left' operator' right') := by
  refine ⟨⟨⟨same.1.fine, connectives _ same.2⟩, leftRelated.1, rightRelated.1⟩, ?_⟩
  rw [leftRelated.2, rightRelated.2, same.replaced inLine]
  rfl

section Factors

variable {factors mirrored : Parse Expr} {bounds : Nat × Nat}
  (factorsPass : Passing pairing bounds factors mirrored (Cursor.Abreast pairing)
    (Related pairing))

include factorsPass

/-- The ladder of operators, level over level, from factors that go abreast. -/
theorem disjunction_parallel :
    Passing pairing bounds (disjunction factors) (disjunction mirrored) (Cursor.Abreast pairing)
      (Related pairing) := by
  have products : Passing pairing bounds (product factors) (product mirrored)
      (Cursor.Abreast pairing) (Related pairing) :=
    chain_parallel (by decide) (binary_related (by decide) (by decide)) factorsPass
  have sums : Passing pairing bounds (sum factors) (sum mirrored) (Cursor.Abreast pairing)
      (Related pairing) :=
    chain_parallel (by decide) (binary_related (by decide) (by decide)) products
  have comparisons : Passing pairing bounds (comparison factors) (comparison mirrored)
      (Cursor.Abreast pairing) (Related pairing) :=
    chain_parallel (by decide) (binary_related (by decide) (by decide)) sums
  have equalities : Passing pairing bounds (equality factors) (equality mirrored)
      (Cursor.Abreast pairing) (Related pairing) :=
    chain_parallel (by decide) (binary_related (by decide) (by decide)) comparisons
  have conjunctions : Passing pairing bounds (conjunction factors) (conjunction mirrored)
      (Cursor.Abreast pairing) (Related pairing) :=
    chain_parallel (by decide) (logical_related (by decide) (by decide)) equalities
  exact chain_parallel (by decide) (logical_related (by decide) (by decide)) conjunctions

/-- Assignments go abreast, however far they nest to the right. -/
theorem assignment_parallel (bound other : Nat) {room : Nat × Nat} (inside : room ≤ bounds)
    (fits : room ≤ (bound, other)) :
    InLine pairing room (assignment factors bound) (assignment mirrored other) (Cursor.less room)
      (Related pairing) := by
  induction bound generalizing other room with
  | zero => exact .of_no_room (.inl (Nat.le_zero.mp fits.1))
  | succ bound inductionHypothesis =>
    cases other with
    | zero => exact .of_no_room (.inr (Nat.le_zero.mp fits.2))
    | succ other =>
      refine .bind (disjunction_parallel factorsPass room inside) ?_
      intro target target' targetRelated
      refine .accepting (by decide) (.pure targetRelated) fun equals equals' same => .stay ?_
      have further := inductionHypothesis other
        (Cursor.less_le_of_le (Cursor.less_le_of_le inside))
        (Cursor.less_le_of_le (Cursor.less_le_less fits))
      refine .bind (.stay further) fun value value' valueRelated => ?_
      obtain ⟨targetMade, rfl⟩ := targetRelated
      obtain ⟨valueMade, rfl⟩ := valueRelated
      cases target with
      | reference name => exact .pure ⟨⟨targetMade, valueMade⟩, rfl⟩
      | _ =>
        exact .bind (.report same.1 (by decide)) fun _ _ _ => .pure ⟨targetMade, rfl⟩

end Factors

/-- Factors go abreast, with whatever nests in their parentheses and behind their signs. -/
theorem factor_parallel (bound other : Nat) :
    Passing pairing (bound, other) (factor bound) (factor other) (Cursor.Abreast pairing)
      (Related pairing) := by
  -- The bounds on both sides fall together. Where one of them is zero, so is the room that is left.
  induction bound generalizing other with
  | zero => exact fun _ fits => .of_no_room (.inl (Nat.le_zero.mp fits.1))
  | succ bound inductionHypothesis =>
    cases other with
    | zero => exact fun _ fits => .of_no_room (.inr (Nat.le_zero.mp fits.2))
    | succ other =>
      intro room fits
      refine .looking id fun one two pair => ?_
      have literalRelated : Related pairing (.literal (one.literal.getD .null))
          (.literal (two.literal.getD .null)) := by
        refine ⟨?_, by rw [pair.literal]; rfl⟩
        cases denoted : one.literal with
        | none => exact .inl (by simp [undenoted])
        | some value => exact .inr ⟨one, pair.fine, denoted⟩
      have replaced := pair.replaced
      have operands := inductionHypothesis other (Cursor.less room) (Cursor.less_le_less fits)
      rw [pair.kind]
      cases kind : one.kind with
      | notWord | minus | plus =>
        refine .bind (.pass (by decide)) fun _ _ _ => ?_
        refine .bind (.stay operands) fun operand operand' related => .pure ?_
        obtain ⟨made, same⟩ := related
        refine ⟨⟨⟨pair.fine, by rw [kind]; decide⟩, made⟩, ?_⟩
        rw [same, replaced (by rw [kind]; decide)]
        rfl
      | integerLiteral | floatLiteral | stringLiteral | charLiteral | trueWord | falseWord =>
        exact .bind (.pass (by decide)) fun _ _ _ => .pure literalRelated
      | nullWord | dollar =>
        refine .bind (.pass (by decide)) fun _ _ _ => .pure ⟨?_, rfl⟩
        exact .inl (by simp [undenoted])
      | identifier =>
        refine .bind (.pass (by decide)) fun _ _ _ => .pure ?_
        rw [replaced (by rw [kind]; decide)]
        exact ⟨⟨pair.fine, kind⟩, rfl⟩
      | leftParen =>
        refine .bind (.pass (by decide)) fun _ _ _ => ?_
        have inner := assignment_parallel (inductionHypothesis other) bound other
          (Cursor.less_le_less fits) (Cursor.less_le_less fits)
        refine .bind (.stay inner) fun expr expr' related => ?_
        obtain ⟨made, same⟩ := related
        refine .bind (.stay (.expect (by decide) (by decide))) fun _ _ _ => .pure ⟨made, ?_⟩
        rw [same]
        rfl
      | _ => exact .narrow (.fail (by decide)) And.left

/-- Whole expressions are parsed abreast, although each side sets its bound from its own tokens. -/
theorem parse_parallel {room : Nat × Nat} :
    InLine pairing room Expr.parse Expr.parse (Cursor.less room) (Related pairing) := by
  refine .counting fun one two counted => ?_
  exact .weaken (assignment_parallel (factor_parallel one two) one two le_rfl le_rfl) id id
    (Cursor.less_le_less counted)

end Expr

namespace Stmt

/-! ### Statements -/

/-- The tokens are names, the first one fine and the second one the first replaced. -/
def Named (pairing : Pairing) (one two : Token) : Prop :=
  (pairing.fine one ∧ one.kind = .identifier) ∧ two = pairing.replace one

/-- A name that is expected is found on both sides or on none. -/
theorem name_parallel {room : Nat × Nat} {message : String} (oneLine : OneLine message) :
    InLine pairing room (expect .identifier message) (expect .identifier message)
      (Cursor.less room) (Named pairing) :=
  .weaken (.expect (by decide) oneLine) (fun same => same.only (by decide)) id le_rfl

/-- One more item of a list whose first item was passed before. -/
theorem moreItems_parallel {α : Type} {room : Nat × Nat} {item mirrored : Parse α}
    {tail others : Parse (List α)} {related : α → α → Prop}
    (items : InLine pairing (Cursor.less room) item mirrored (Cursor.less (Cursor.less room))
      related)
    (tails : InLine pairing (Cursor.less room) tail others (Cursor.less room)
      (List.Forall₂ related)) :
    InLine pairing room
      (do
        match ← accept [.comma] with
        | none => return []
        | some _ =>
          let next ← item
          let rest ← tail
          return next :: rest)
      (do
        match ← accept [.comma] with
        | none => return []
        | some _ =>
          let next ← mirrored
          let rest ← others
          return next :: rest)
      room (List.Forall₂ related) := by
  refine .accepting (by decide) (.pure .nil) fun _ _ _ => .stay ?_
  refine .bind (.stay items) fun next next' nextRelated => ?_
  exact .bind tails fun rest rest' restRelated => .pure (.cons nextRelated restRelated)

theorem moreNames_parallel (bound other : Nat) {room : Nat × Nat} (fits : room ≤ (bound, other)) :
    InLine pairing room (moreNames bound) (moreNames other) room
      (List.Forall₂ (Named pairing)) := by
  induction bound generalizing other room with
  | zero => exact .of_no_room (.inl (Nat.le_zero.mp fits.1))
  | succ bound inductionHypothesis =>
    cases other with
    | zero => exact .of_no_room (.inr (Nat.le_zero.mp fits.2))
    | succ other =>
      exact moreItems_parallel (name_parallel (by decide))
        (inductionHypothesis other (Cursor.less_le_less fits))

/-- Declarators are parsed abreast, initial values included. -/
theorem declarator_parallel {room : Nat × Nat} :
    InLine pairing room declarator declarator (Cursor.less room) (Declarator.Related pairing) := by
  refine .bind (name_parallel (by decide)) fun name name' named => ?_
  obtain ⟨nameFine, rfl⟩ := named
  refine .accepting (by decide) (.pure ⟨⟨nameFine, nofun⟩, rfl⟩) fun _ _ _ => .stay ?_
  refine .bind (.stay Expr.parse_parallel) fun expr expr' exprRelated => .pure ?_
  obtain ⟨exprMade, rfl⟩ := exprRelated
  refine ⟨⟨nameFine, ?_⟩, rfl⟩
  rintro _ ⟨⟩
  exact exprMade

theorem moreDeclarators_parallel (bound other : Nat) {room : Nat × Nat}
    (fits : room ≤ (bound, other)) :
    InLine pairing room (moreDeclarators bound) (moreDeclarators other) room
      (List.Forall₂ (Declarator.Related pairing)) := by
  induction bound generalizing other room with
  | zero => exact .of_no_room (.inl (Nat.le_zero.mp fits.1))
  | succ bound inductionHypothesis =>
    cases other with
    | zero => exact .of_no_room (.inr (Nat.le_zero.mp fits.2))
    | succ other =>
      exact moreItems_parallel declarator_parallel
        (inductionHypothesis other (Cursor.less_le_less fits))

/-- The same type is named on both sides. -/
theorem typeName_parallel {room : Nat × Nat} :
    InLine pairing room typeName typeName (Cursor.less room) (· = ·) := by
  refine .looking id fun one two pair => ?_
  rw [pair.kind]
  cases kind : one.kind with
  | typeName type =>
    refine .bind (.pass ?_) fun _ _ _ => .pure rfl
    rintro (breaks | ended)
    · cases breaks
    · cases ended
  | _ => exact .narrow (.fail (by decide)) And.left

/-- Lists whose items are fine and replaced one by one. -/
theorem forall₂_replaced {α : Type} {fine : α → Prop} {replace : α → α} {one two : List α}
    (items : List.Forall₂ (fun item other => fine item ∧ other = replace item) one two) :
    (∀ item ∈ one, fine item) ∧ two = one.map replace := by
  induction items with
  | nil => exact ⟨nofun, rfl⟩
  | cons related _ inductionHypothesis =>
    refine ⟨List.forall_mem_cons.mpr ⟨related.1, inductionHypothesis.1⟩, ?_⟩
    rw [related.2, inductionHypothesis.2, List.map_cons]

/-- A declaration is parsed abreast to the end of its line. -/
theorem declaration_parallel {room : Nat × Nat} :
    ToLineEnd pairing room declaration declaration (Cursor.less room) (Related pairing) := by
  refine .bind (.expect (by decide) (by decide)) fun _ _ _ => ?_
  refine .bind (.stay typeName_parallel) fun type _ same => ?_
  subst same
  refine .bind (.stay declarator_parallel) fun first first' firstRelated => ?_
  refine .counting fun one two counted => ?_
  refine .weaken (.bind (moreDeclarators_parallel one two le_rfl) ?_) id id counted
  intro others others' othersRelated
  refine .bind (.stay (.endLine (by decide))) fun _ _ _ => .pure ?_
  obtain ⟨made, same⟩ := forall₂_replaced (.cons firstRelated othersRelated)
  exact ⟨⟨List.cons_ne_nil _ _, made⟩, congrArg (Stmt.declare type) same⟩

theorem printing_parallel {room : Nat × Nat} :
    ToLineEnd pairing room printing printing (Cursor.less room) (Related pairing) := by
  refine .bind (.expect (by decide) (by decide)) fun _ _ _ => ?_
  refine .bind (.stay (.expect (by decide) (by decide))) fun _ _ _ => ?_
  refine .bind (.stay Expr.parse_parallel) fun expr expr' exprRelated => ?_
  refine .bind (.stay (.endLine (by decide))) fun _ _ _ => .pure ?_
  exact ⟨exprRelated.1, congrArg Stmt.print exprRelated.2⟩

theorem scanning_parallel {room : Nat × Nat} :
    ToLineEnd pairing room scanning scanning (Cursor.less room) (Related pairing) := by
  refine .bind (.expect (by decide) (by decide)) fun _ _ _ => ?_
  refine .bind (.stay (.expect (by decide) (by decide))) fun _ _ _ => ?_
  refine .bind (.stay (name_parallel (by decide))) fun first first' firstNamed => ?_
  refine .counting fun one two counted => ?_
  refine .weaken (.bind (moreNames_parallel one two le_rfl) ?_) id id counted
  intro others others' othersNamed
  refine .bind (.stay (.endLine (by decide))) fun _ _ _ => .pure ?_
  obtain ⟨firstFine, rfl⟩ := firstNamed
  obtain ⟨othersFine, rfl⟩ := forall₂_replaced othersNamed
  exact ⟨List.forall_mem_cons.mpr ⟨firstFine, othersFine⟩, rfl⟩

theorem expressionLine_parallel {room : Nat × Nat} :
    ToLineEnd pairing room expressionLine expressionLine (Cursor.less room) (Related pairing) := by
  refine .bind Expr.parse_parallel fun expr expr' exprRelated => ?_
  refine .bind (.stay (.endLine (by decide))) fun _ _ _ => .pure ?_
  exact ⟨exprRelated.1, congrArg Stmt.expression exprRelated.2⟩

theorem condition_parallel {room : Nat × Nat} {header : String} (oneLine : OneLine header) :
    ToLineEnd pairing room (condition header) (condition header) room (Expr.Related pairing) := by
  refine .bind (.stay (.expect (by decide) ?_)) fun _ _ _ => ?_
  · exact oneLine.framed (by decide) (by decide)
  refine .bind (.stay Expr.parse_parallel) fun expr expr' exprRelated => ?_
  refine .bind (.stay (.expect (by decide) (by decide))) fun _ _ _ => ?_
  refine .bind (.stay (.endLine (oneLine.framed (by decide) (by decide)))) fun _ _ _ => ?_
  exact .pure exprRelated

/-- A missing clause is missing in both runs. -/
theorem clause_parallel {room : Nat × Nat} (closer : TokenKind) :
    InLine pairing room (clause closer) (clause closer) room
      (Option.Rel (Expr.Related pairing)) := by
  refine .checking [closer] id (.narrow (.pure .none) And.left) (.narrow ?_ And.left)
  exact .bind (.stay Expr.parse_parallel) fun expr expr' exprRelated => .pure (.some exprRelated)

/-! #### Runs of statements -/

/-- A token ahead of one within a line is the same in both runs. -/
theorem peek_abreast {one two : Cursor} (abreast : one.Abreast pairing two)
    (inLine : ¬ one.current.kind.EndsLine) : (two.peek 1).kind = (one.peek 1).kind := by
  obtain ⟨before, current, after⟩ := one
  obtain ⟨passed, mirror, behind⟩ := two
  have more := abreast.after_ne_nil fun ended => inLine (.inr ended)
  obtain ⟨next, rest, rfl⟩ := List.exists_cons_of_ne_nil more.1
  obtain ⟨nextMirror, restMirror, rfl⟩ := List.exists_cons_of_ne_nil more.2
  rcases Matching.tail_cases abreast with ⟨ended, _⟩ | ⟨_, ahead⟩ | ⟨breaks, _⟩
  · exact absurd (.inr ended) inLine
  · exact ahead.head.kind
  · exact absurd (.inl breaks) inLine

/-- Whether a run of statements is over is told by the kinds of the next tokens, which are the same
on both sides. -/
theorem endsAt_abreast {one two : Cursor} (abreast : one.Abreast pairing two)
    (nesting : Nesting) : endsAt nesting two = endsAt nesting one := by
  unfold endsAt
  rw [abreast.current.kind]
  split
  · rfl
  · rename_i word
    cases nesting with
    | inBlock => rfl
    | topLevel =>
      dsimp only
      rw [peek_abreast abreast (by rw [word]; decide)]
  · rfl

/-- Runs of statements end at the same place, and never behind the last token. -/
theorem atEnd_parallel {β : Type} {nesting : Nesting} {room left : Nat × Nat}
    {leave : Cursor → Cursor → Prop} {final : β → β → Prop} {next following : Bool → Parse β}
    (ended : Parallel pairing (Cursor.Abreast pairing) room (next true) (following true) leave left
      final)
    (inside : Parallel pairing (Cursor.Seeing pairing (· ≠ .eof)) room (next false)
      (following false) leave left final) :
    Parallel pairing (Cursor.Abreast pairing) room (atEnd nesting >>= next)
      (atEnd nesting >>= following) leave left final := by
  intro start other abreast within errors
  change Agree _ _ _ _ (next (endsAt nesting start.cursor) start)
    (following (endsAt nesting other.cursor) other)
  rw [endsAt_abreast abreast]
  cases ends : endsAt nesting start.cursor with
  | true => exact ended start other abreast within errors
  | false =>
    refine inside start other ⟨abreast, fun eof => ?_⟩ within errors
    simp [endsAt, eof] at ends

section Nested

variable {inner : Nat × Nat} {item mirrored : Parse Stmt}
  (items : Passing pairing inner item mirrored (Cursor.AbreastPastBlank pairing)
    (Related pairing))

include items

/-- One turn of a run goes abreast: the statement, or the recovery behind its error. -/
theorem round_parallel {room : Nat × Nat} (fits : room ≤ inner) :
    Parallel pairing (Cursor.Seeing pairing (· ≠ .eof)) room (round item) (round mirrored)
      (Cursor.AbreastPastBlank pairing) (Cursor.less room) (Option.Rel (Related pairing)) := by
  refine .checking [.endWord] And.left ?_ ?_
  · refine .looking (fun stood => stood.1.1) fun token other pair => ?_
    refine .bind (.report pair (by decide)) fun _ _ _ => ?_
    refine .bind (.narrow (.skipLine (not_not_intro rfl)) fun stood => stood.1.1) ?_
    exact fun _ _ _ => .pure .none
  · refine .narrow (.recover (not_not_intro rfl) ?_) And.left
    exact .narrow (items room fits) And.left

/-- Runs of statements go abreast, turn by turn. -/
theorem runFrom_parallel (nesting : Nesting) (bound other : Nat) {room : Nat × Nat}
    (fits : room ≤ inner) (bounded : room ≤ (bound, other)) :
    InLine pairing room (runFrom nesting item bound) (runFrom nesting mirrored other) room
      (List.Forall₂ (Related pairing)) := by
  induction bound generalizing other room with
  | zero => exact .of_no_room (.inl (Nat.le_zero.mp bounded.1))
  | succ bound inductionHypothesis =>
    cases other with
    | zero => exact .of_no_room (.inr (Nat.le_zero.mp bounded.2))
    | succ other =>
      refine atEnd_parallel (.pure .nil) (.stay ?_)
      refine .bind (round_parallel items fits) fun found found' foundRelated => ?_
      refine .bind .skipNewlines fun _ _ _ => ?_
      have further := inductionHypothesis other (Cursor.less_le_of_le fits)
        (Cursor.less_le_less bounded)
      refine .bind further fun rest rest' restRelated => .pure ?_
      cases foundRelated with
      | none => exact restRelated
      | some related => exact .cons related restRelated

theorem run_parallel (nesting : Nesting) {room : Nat × Nat} (fits : room ≤ inner) :
    Parallel pairing (Cursor.AbreastPastBlank pairing) room (run nesting item)
      (run nesting mirrored) (Cursor.Abreast pairing) room (List.Forall₂ (Related pairing)) := by
  refine .bind .skipNewlines fun _ _ _ => .counting fun one two counted => ?_
  exact .weaken (runFrom_parallel items nesting one two (counted.trans fits) le_rfl) id id counted

/-- The statements of a form, from the end of its header line to its last word. -/
theorem blockOf_parallel {form : TokenKind} (inLine : ¬ form.EndsLine) {room : Nat × Nat}
    (fits : room ≤ inner) :
    Parallel pairing (Cursor.AbreastPastBlank pairing) room (blockOf item form)
      (blockOf mirrored form) (Cursor.Abreast pairing) room
      fun one two => one.IsBlock ∧ Related pairing one two := by
  have told {before behind : String} (front : OneLine before) (back : OneLine behind) :
      OneLine (before ++ form.label ++ behind) := form.oneLine_label.framed front back
  refine .bind .skipNewlines fun _ _ _ => ?_
  refine .bind (.stay (.expect (by decide) (told (by decide) (by decide)))) fun _ _ _ => ?_
  refine .bind (.stay (.expect inLine (told (by decide) (by decide)))) fun _ _ _ => ?_
  refine .bind (.stay (.endLine (told (by decide) (by decide)))) fun _ _ _ => ?_
  refine .bind (run_parallel items .inBlock fits) fun statements _ related => ?_
  refine .bind (.stay (.expect (by decide) (told (by decide) (by decide)))) fun _ _ _ => ?_
  refine .bind (.stay (.expect inLine (told (by decide) (by decide)))) fun _ _ _ => ?_
  refine .pure ⟨⟨_, rfl⟩, ?_⟩
  obtain ⟨made, rfl⟩ := forall₂_replaced related
  exact ⟨eachMadeOf_iff.mpr made, congrArg Stmt.block (mapEach_eq_map _ _).symm⟩

/-- The branches of a conditional go abreast, each with one bound less. -/
theorem conditional_parallel (bound other : Nat) {room : Nat × Nat}
    (fits : Cursor.less room ≤ inner) (bounded : room ≤ (bound, other)) :
    ToLineEnd pairing room (conditional item bound) (conditional mirrored other) (Cursor.less room)
      fun one two => one.IsBranch ∧ Related pairing one two := by
  induction bound generalizing other room with
  | zero => exact .of_no_room (.inl (Nat.le_zero.mp bounded.1))
  | succ bound inductionHypothesis =>
    cases other with
    | zero => exact .of_no_room (.inr (Nat.le_zero.mp bounded.2))
    | succ other =>
      refine .bind (.expect (by decide) (by decide)) fun keyword keyword' same => ?_
      obtain ⟨keywordFine, rfl⟩ := same.only (by decide)
      have keyed : Keyed pairing.fine [.ifWord] (some keyword) :=
        ⟨keyword, rfl, keywordFine.1, List.mem_singleton.mpr keywordFine.2⟩
      refine .bind (condition_parallel (by decide)) fun test _ ⟨testMade, testSame⟩ => ?_
      subst testSame
      refine .bind (blockOf_parallel items (by decide) fits) ?_
      rintro thenBranch _ ⟨thenBlock, thenMade, rfl⟩
      refine .bind (.stay (.endLine (by decide))) fun _ _ _ => ?_
      refine .bind .skipNewlines fun _ _ _ => ?_
      refine .accepting (by decide) ?_ fun _ _ _ => ?_
      · refine .weaken (.pure ?_) id Cursor.Abreast.pastBlank le_rfl
        exact ⟨⟨_, _, _, _, rfl⟩, ⟨keyed, testMade, ⟨thenBlock, thenMade⟩, trivial⟩, rfl⟩
      -- `ELSE IF` takes the conditional again with less room; a bare `ELSE` closes it.
      · refine .checking [.ifWord] id (.narrow (.stay ?_) And.left) (.narrow (.stay ?_) And.left)
        · have further := inductionHypothesis other
            (Cursor.less_le_of_le (Cursor.less_le_of_le fits))
            (Cursor.less_le_of_le (Cursor.less_le_less bounded))
          refine .bind (.stay further) ?_
          rintro elseBranch _ ⟨elseChained, elseMade, rfl⟩
          refine .pure ⟨⟨_, _, _, _, rfl⟩, ⟨keyed, testMade, ⟨thenBlock, thenMade⟩, ?_⟩, rfl⟩
          exact ⟨.inr elseChained, elseMade⟩
        · refine .bind (.stay (.endLine (by decide))) fun _ _ _ => ?_
          refine .bind (blockOf_parallel items (by decide) (Cursor.less_le_of_le fits)) ?_
          rintro elseBranch _ ⟨elseBlock, elseMade, rfl⟩
          refine .bind (.stay (.endLine (by decide))) fun _ _ _ => ?_
          refine .pure ⟨⟨_, _, _, _, rfl⟩, ⟨keyed, testMade, ⟨thenBlock, thenMade⟩, ?_⟩, rfl⟩
          exact ⟨.inl elseBlock, elseMade⟩

/-- A loop with a condition alone, up to the end of its last line. -/
theorem repetition_parallel {room : Nat × Nat} (fits : Cursor.less room ≤ inner) :
    ToLineEnd pairing room (repetition item) (repetition mirrored) (Cursor.less room)
      (Related pairing) := by
  refine .bind (.expect (by decide) (by decide)) fun keyword keyword' same => ?_
  obtain ⟨keywordFine, rfl⟩ := same.only (by decide)
  refine .bind (.stay (.expect (by decide) (by decide))) fun _ _ _ => ?_
  refine .bind (condition_parallel (by decide)) fun test _ ⟨testMade, testSame⟩ => ?_
  subst testSame
  refine .bind (blockOf_parallel items (by decide) fits) ?_
  rintro body _ ⟨bodyBlock, bodyMade, rfl⟩
  refine .bind (.stay (.endLine (by decide))) fun _ _ _ => .pure ?_
  have keyed : Keyed pairing.fine [.forWord, .repeatWord] (some keyword) :=
    ⟨keyword, rfl, keywordFine.1, by simp [keywordFine.2]⟩
  exact ⟨⟨keyed, testMade, bodyBlock, bodyMade⟩, rfl⟩

omit items in
theorem clause_related {one two : Option Expr}
    (related : Option.Rel (Expr.Related pairing) one two) :
    (∀ expr, one = some expr → expr.MadeOf pairing.fine) ∧
      two = one.map (Expr.mapTokens pairing.replace) := by
  cases related with
  | none => exact ⟨nofun, rfl⟩
  | some exprRelated =>
    refine ⟨?_, congrArg some exprRelated.2⟩
    rintro _ ⟨⟩
    exact exprRelated.1

/-- A counting loop, of which any clause may be missing; it is missing on both sides then. -/
theorem counting_parallel {room : Nat × Nat} (fits : Cursor.less room ≤ inner) :
    ToLineEnd pairing room (counting item) (counting mirrored) (Cursor.less room)
      (Related pairing) := by
  refine .bind (.expect (by decide) (by decide)) fun keyword keyword' same => ?_
  obtain ⟨keywordFine, rfl⟩ := same.only (by decide)
  refine .bind (.stay (.expect (by decide) (by decide))) fun _ _ _ => ?_
  refine .bind (clause_parallel .comma) fun first _ firstRelated => ?_
  refine .bind (.stay (.expect (by decide) (by decide))) fun _ _ _ => ?_
  refine .bind (clause_parallel .comma) fun test _ testRelated => ?_
  refine .bind (.stay (.expect (by decide) (by decide))) fun _ _ _ => ?_
  refine .bind (clause_parallel .rightParen) fun last _ lastRelated => ?_
  refine .bind (.stay (.expect (by decide) (by decide))) fun _ _ _ => ?_
  refine .bind (.stay (.endLine (by decide))) fun _ _ _ => ?_
  refine .bind (blockOf_parallel items (by decide) fits) ?_
  rintro body _ ⟨_, bodyMade, rfl⟩
  refine .bind (.stay (.endLine (by decide))) fun _ _ _ => .pure ?_
  obtain ⟨firstMade, rfl⟩ := clause_related firstRelated
  obtain ⟨testMade, rfl⟩ := clause_related testRelated
  obtain ⟨lastMade, rfl⟩ := clause_related lastRelated
  exact ⟨forLoop_madeOf keywordFine firstMade testMade lastMade bodyMade,
    (mapTokens_forLoop _).symm⟩

/-- The first token has the same kind on both sides, so that the same form is parsed. -/
theorem statementOver_parallel {room : Nat × Nat} (fits : Cursor.less room ≤ inner) :
    ToLineEnd pairing room (statementOver item) (statementOver mirrored) (Cursor.less room)
      (Related pairing) := by
  refine .looking id fun one two pair => .narrow ?_ And.left
  rw [pair.kind]
  cases one.kind with
  | declareWord => exact .fail (by decide)
  | printWord => exact printing_parallel
  | scanWord => exact scanning_parallel
  | ifWord =>
    refine .counting fun bound other counted => ?_
    have branches := conditional_parallel items bound other
      ((Cursor.less_le_less counted).trans fits) le_rfl
    exact branches.weaken And.right id (Cursor.less_le_less counted)
  | repeatWord => exact repetition_parallel items fits
  | forWord => exact counting_parallel items fits
  | _ => exact expressionLine_parallel

end Nested

/-- Statements go abreast, with all that nests in their blocks. -/
theorem statement_parallel (bound other : Nat) :
    Passing pairing (bound, other) (statement bound) (statement other)
      (Cursor.AbreastPastBlank pairing) (Related pairing) := by
  -- The bounds on both sides fall together. Where one of them is zero, so is the room that is left.
  induction bound generalizing other with
  | zero => exact fun _ fits => .of_no_room (.inl (Nat.le_zero.mp fits.1))
  | succ bound inductionHypothesis =>
    cases other with
    | zero => exact fun _ fits => .of_no_room (.inr (Nat.le_zero.mp fits.2))
    | succ other =>
      intro room fits
      exact statementOver_parallel (inductionHypothesis other) (Cursor.less_le_less fits)

theorem parseRun_parallel (nesting : Nesting) {room : Nat × Nat} :
    InLine pairing room (parseRun nesting) (parseRun nesting) room
      (List.Forall₂ (Related pairing)) := by
  refine .counting fun one two counted => ?_
  refine .weaken (.narrow ?_ Cursor.Abreast.pastBlank) id id counted
  exact run_parallel (statement_parallel one two) nesting le_rfl

end Stmt

/-! ### Programs -/

namespace Program

/-- The opening lines of a program go abreast, with blank lines skipped on each side alone. -/
theorem header_parallel {room : Nat × Nat} :
    Parallel pairing (Cursor.AbreastPastBlank pairing) room header header
      (Cursor.AbreastPastBlank pairing) room fun _ _ => True := by
  refine .bind .skipNewlines fun _ _ _ => ?_
  refine .bind (.expectLine [.scriptWord, .areaWord] (by decide) (by decide)) fun _ _ _ => ?_
  refine .bind .skipNewlines fun _ _ _ => ?_
  exact .expectLine [.startWord, .scriptWord] (by decide) (by decide)

/-- Declarations go abreast, as long as the next token declares. -/
theorem declarationsFrom_parallel (bound other : Nat) {room : Nat × Nat}
    (fits : room ≤ (bound, other)) :
    InLine pairing room (declarationsFrom bound) (declarationsFrom other) room
      (List.Forall₂ (Stmt.Related pairing)) := by
  induction bound generalizing other room with
  | zero => exact .of_no_room (.inl (Nat.le_zero.mp fits.1))
  | succ bound inductionHypothesis =>
    cases other with
    | zero => exact .of_no_room (.inr (Nat.le_zero.mp fits.2))
    | succ other =>
      refine .checking [.declareWord] id (.stay ?_) (.narrow (.pure .nil) And.left)
      have recovered : Parallel pairing (Cursor.Seeing pairing (· ∈ [.declareWord])) room
          (recover Stmt.declaration) (recover Stmt.declaration)
          (Cursor.AbreastPastBlank pairing) (Cursor.less room)
          (Option.Rel (Stmt.Related pairing)) :=
        .recover (by decide) (.narrow Stmt.declaration_parallel And.left)
      refine .bind recovered fun found found' foundRelated => ?_
      refine .bind .skipNewlines fun _ _ _ => ?_
      refine .bind (inductionHypothesis other (Cursor.less_le_less fits)) ?_
      intro rest rest' restRelated
      refine .pure ?_
      cases foundRelated with
      | none => exact restRelated
      | some related => exact .cons related restRelated

theorem footer_parallel {room : Nat × Nat} :
    InLine pairing room footer footer room fun _ _ => True := by
  refine .bind (.expectAll (by decide) (by decide)) fun _ _ _ => ?_
  refine .bind (.narrow .skipNewlines Cursor.Abreast.pastBlank) fun _ _ _ => ?_
  exact .checking [.eof] id (.narrow (.pure trivial) And.left)
    (.narrow (.fail (by decide)) And.left)

/-- A whole program goes abreast, from the first line to the last. -/
theorem statements_parallel {room : Nat × Nat} :
    Parallel pairing (Cursor.AbreastPastBlank pairing) room statements statements
      (Cursor.Abreast pairing) room (List.Forall₂ (Stmt.Related pairing)) := by
  refine .bind header_parallel fun _ _ _ => ?_
  have declared : Parallel pairing (Cursor.AbreastPastBlank pairing) room declarations
      declarations (Cursor.Abreast pairing) room (List.Forall₂ (Stmt.Related pairing)) := by
    refine .bind .skipNewlines fun _ _ _ => .counting fun one two counted => ?_
    exact (declarationsFrom_parallel one two le_rfl).weaken id id counted
  refine .bind declared fun first first' firstRelated => ?_
  refine .bind (Stmt.parseRun_parallel .topLevel) fun rest rest' restRelated => ?_
  exact .bind footer_parallel fun _ _ _ => .pure (List.rel_append firstRelated restRelated)

/-- Parsing tokens that match finds the same program up to replacement, and reports the same
errors. -/
theorem parse_related {one two : List Token}
    (matching : Matching pairing (dropBlank one) (dropBlank two)) :
    (parse two).program = (parse one).program.map (List.map (Stmt.mapTokens pairing.replace)) ∧
      (∀ program, (parse one).program = some program →
        ∀ statement ∈ program, statement.MadeOf pairing.fine) ∧
      List.Forall₂ (SyntaxError.Matches pairing) (parse one).errors (parse two).errors := by
  -- A text that is not blank has a first token, so the cursor faces the whole of it.
  have ahead {tokens : List Token} (some : dropBlank tokens ≠ []) :
      (Cursor.ofTokens tokens).ahead = tokens := by
    cases tokens with
    | nil => exact absurd rfl some
    | cons first rest => rfl
  have near : (Cursor.ofTokens one).AbreastPastBlank pairing (Cursor.ofTokens two) := by
    unfold Cursor.AbreastPastBlank
    rw [ahead matching.ne_nil.1, ahead matching.ne_nil.2]
    exact matching
  have agree := statements_parallel (Progress.ofTokens one) (Progress.ofTokens two) near le_rfl .nil
  rw [parse_eq, parse_eq]
  generalize statements (Progress.ofTokens one) = result at agree ⊢
  generalize statements (Progress.ofTokens two) = mirror at agree ⊢
  cases agree with
  | error onward _ => exact ⟨rfl, nofun, onward.errors⟩
  | ok onward holds =>
    obtain ⟨made, rfl⟩ := Stmt.forall₂_replaced holds.1
    -- The programs are handed out only when nothing was reported, on both sides alike.
    have errors := onward.errors
    dsimp only
    generalize Progress.errors _ = reports at errors ⊢
    generalize Progress.errors _ = others at errors ⊢
    cases errors with
    | nil =>
      refine ⟨rfl, ?_, .nil⟩
      rintro _ ⟨⟩
      exact made
    | cons first rest => exact ⟨rfl, nofun, .cons first rest⟩

end Program

end LineScript
