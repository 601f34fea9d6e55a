/-
Module: LineScript.Proofs.FaithfulDumps
Purpose: A dump tells the program, but for where its tokens stand and for some keywords.
Trusted boundary: none
Main exports: outline, outlineEach, eachForm_eq_of_renderProgram, Program.dumps_faithful
-/
import LineScript.Proofs.DumpLayout
import LineScript.Proofs.InputRoundTrip
import LineScript.Proofs.ParsedTree

/-!
A dump shows the forms of its statements, and no text shows two lists of forms. What is left is that
a form tells its tree. A word is lexed again, which gives the token it came from; the head of a list
and the number of its parts give the rest. The places of tokens are not shown, nor are the keywords
of conditionals and loops, so `outline` leaves them out.
-/

namespace LineScript

/-! ### What a dump leaves out -/

/-- The token without its place. -/
def Token.unplaced (token : Token) : Token :=
  { token with position := .start }

namespace Stmt

mutual

/-- The statement without the places of its tokens and the keywords of conditionals and loops. -/
def outline : Stmt → Stmt
  | .declare type names => .declare type (names.map (Declarator.mapTokens Token.unplaced))
  | .expression expr => .expression (expr.mapTokens Token.unplaced)
  | .print expr => .print (expr.mapTokens Token.unplaced)
  | .scan first others => .scan first.unplaced (others.map Token.unplaced)
  | .branch _ condition thenBranch elseBranch =>
    .branch none (condition.mapTokens Token.unplaced) thenBranch.outline (outlineElse elseBranch)
  | .loop _ condition body => .loop none (condition.mapTokens Token.unplaced) body.outline
  | .block statements => .block (outlineEach statements)

/-- The outline of the other branch of a conditional, if there is one. -/
def outlineElse : Option Stmt → Option Stmt
  | none => none
  | some statement => some statement.outline

/-- The outlines of some statements. -/
def outlineEach : List Stmt → List Stmt
  | [] => []
  | statement :: rest => statement.outline :: outlineEach rest

end

theorem outlineEach_eq_map (statements : List Stmt) :
    outlineEach statements = statements.map outline := by
  induction statements with
  | nil => rfl
  | cons statement rest inductionHypothesis =>
    rw [outlineEach, inductionHypothesis, List.map_cons]

end Stmt

/-! ### A dump does not show what is left out -/

/-- The dump of an expression shows no places of tokens. -/
theorem Expr.render_mapTokens_unplaced (expr : Expr) :
    (expr.mapTokens Token.unplaced).render = expr.render := by
  induction expr with
  | literal value => rfl
  | reference name => rfl
  | assign name value inductionHypothesis =>
    rw [mapTokens, render, render, inductionHypothesis, Token.unplaced]
  | unary operator operand inductionHypothesis =>
    rw [mapTokens, render, render, inductionHypothesis, Token.unplaced]
  | binary left operator right leftHypothesis rightHypothesis =>
    rw [mapTokens, render, render, leftHypothesis, rightHypothesis, Token.unplaced]
  | logical left operator right leftHypothesis rightHypothesis =>
    rw [mapTokens, render, render, leftHypothesis, rightHypothesis, Token.unplaced]
  | group inner inductionHypothesis => rw [mapTokens, render, render, inductionHypothesis]

namespace Stmt

theorem renderDeclarator_mapTokens_unplaced (declarator : Declarator) :
    renderDeclarator (declarator.mapTokens Token.unplaced) = renderDeclarator declarator := by
  obtain ⟨name, initializer⟩ := declarator
  cases initializer with
  | none => rfl
  | some expr =>
    simp [renderDeclarator, Declarator.mapTokens, Expr.render_mapTokens_unplaced, Token.unplaced]

variable (indent : String)

mutual

/-- The dump of a statement shows neither places nor what the outline drops. -/
theorem render_outline (depth : Nat) :
    ∀ statement : Stmt, statement.outline.render indent depth = statement.render indent depth
  | .declare type names => by
    simp [outline, render, Function.comp_def, renderDeclarator_mapTokens_unplaced]
  | .expression expr => by rw [outline, render, render, Expr.render_mapTokens_unplaced]
  | .print expr => by rw [outline, render, render, Expr.render_mapTokens_unplaced]
  | .scan first others => by simp [outline, render, Function.comp_def, Token.unplaced]
  | .branch keyword condition thenBranch elseBranch => by
    rw [outline, render, render, Expr.render_mapTokens_unplaced, render_outline (depth + 1),
      renderElse_outlineElse (depth + 1)]
  | .loop keyword condition body => by
    rw [outline, render, render, Expr.render_mapTokens_unplaced, render_outline (depth + 1)]
  | .block statements => by
    rw [outline, render, render, renderEach_outlineEach (depth + 1)]

theorem renderElse_outlineElse (depth : Nat) :
    ∀ elseBranch : Option Stmt,
      renderElse indent depth (outlineElse elseBranch) = renderElse indent depth elseBranch
  | none => rfl
  | some statement => by rw [outlineElse, renderElse, renderElse, render_outline depth]

theorem renderEach_outlineEach (depth : Nat) :
    ∀ statements : List Stmt,
      renderEach indent depth (outlineEach statements) = renderEach indent depth statements
  | [] => rfl
  | statement :: rest => by
    rw [outlineEach, renderEach, renderEach, render_outline depth, renderEach_outlineEach depth]

end

/-- Nor does the dump of a program. -/
theorem renderProgram_map_outline (statements : List Stmt) :
    renderProgram indent (statements.map outline) = renderProgram indent statements := by
  rw [renderProgram, renderProgram, List.map_map]
  exact congrArg _ (List.map_congr_left fun statement _ => render_outline indent 0 statement)

end Stmt

/-! ### Words are lexed again -/

namespace Token

/-- The first token of a text. -/
def ofText (text : String) : Token :=
  (lex text).tokens.headD (.endAt .start)

/-- A word that is cut off as one piece is the token of its text. -/
theorem ofText_eq {text : String} {kind : TokenKind} {literal : Option Value}
    (whole : pieces text.toList = [⟨.token kind literal, text.toList⟩]) :
    ofText text = ⟨kind, text, literal, .start⟩ := by
  rw [ofText, lex_eq, whole, placed_cons, Piece.token?, String.ofList_toList]
  rfl

/-- A token that stands alone is lexed again from its lexeme, but for its place. -/
theorem StandsAlone.ofText_lexeme {token : Token} (alone : token.StandsAlone) :
    ofText token.lexeme = token.unplaced :=
  ofText_eq alone.pieces_lexeme

/-- What a token is as an operand: a name, or the value that it denotes. -/
def operand (token : Token) : Expr :=
  if token.kind = .identifier then .reference token else .literal (token.literal.getD .null)

end Token

/-! ### Trees read off their forms -/

namespace Form

/-- The token that a word is. -/
def token : Form → Token
  | .word text => .ofText text
  | _ => .endAt .start

/-- The type that a word names. -/
def varType : Form → VarType
  | .word text => (VarType.ofLabel? text).getD .int
  | _ => .int

/-- The expression of a form. -/
def expr : Form → Expr
  | .word text => (Token.ofText text).operand
  | .quoted content => .literal (.text content)
  | .list head [inner] =>
    if head = "group" then .group inner.expr else .unary (.ofText head) inner.expr
  | .list head [left, right] =>
    if head = "=" then .assign left.token right.expr
    else if (Token.ofText head).kind ∈ Expr.connectiveKinds then
      .logical left.expr (.ofText head) right.expr
    else .binary left.expr (.ofText head) right.expr
  | .list _ _ => .literal .null

/-- The declared name of a form. -/
def declarator : Form → Declarator
  | .list _ [name, initializer] => ⟨name.token, some initializer.expr⟩
  | form => ⟨form.token, none⟩

mutual

/-- The statement of a form. -/
def stmt : Form → Stmt
  | .list "declare" (type :: names) => .declare type.varType (names.map declarator)
  | .list "print" [inner] => .print inner.expr
  | .list "scan" (first :: others) => .scan first.token (others.map token)
  | .list "if" [condition, thenBranch] => .branch none condition.expr thenBranch.stmt none
  | .list "if" [condition, thenBranch, elseBranch] =>
    .branch none condition.expr thenBranch.stmt (some elseBranch.stmt)
  | .list "when" [condition, body] => .loop none condition.expr body.stmt
  | .list "block" statements => .block (eachStmt statements)
  | form => .expression form.expr

/-- The statements of some forms. -/
def eachStmt : List Form → List Stmt
  | [] => []
  | statement :: rest => statement.stmt :: eachStmt rest

end

/-- The form is no list with the head of a statement. -/
def IsExpression : Form → Prop
  | .list head _ => head ∉ statementHeads
  | _ => True

theorem stmt_of_isExpression {form : Form} (expression : form.IsExpression) :
    form.stmt = .expression form.expr := by
  have other : ∀ {head parts}, head ∈ statementHeads → form ≠ .list head parts := by
    rintro head parts listed rfl
    exact expression listed
  unfold stmt
  split
  case h_8 => rfl
  all_goals exact absurd rfl (other (by decide))

end Form

/-! ### A form tells its tree -/

section Told

variable {fine : Token → Prop} (lexed : ∀ token, fine token → token.IsLexed)

theorem VarType.varType_word_label (type : VarType) : (Form.word type.label).varType = type := by
  cases type <;> rfl

/-- The form of a literal is read as the literal. -/
theorem Value.expr_form_of_denotable {value : Value} (denotable : value.Denotable)
    (floatFree : value.isFloatFree) : value.form.expr = .literal value := by
  cases denotable with
  | bool truth =>
    show (Token.ofText (boolText truth)).operand = _
    rw [Token.ofText_eq (Input.pieces_boolText truth)]
    cases truth <;> rfl
  | int small =>
    rename_i number
    unfold leastUnprintable at small
    have short := (Number.length_natDigits_le_iff (by decide)).mpr small
    have whole := Input.pieces_natDigits short
    rw [← Number.toList_intText_natCast] at whole
    show (Token.ofText (Number.intText number)).operand = _
    rw [Token.ofText_eq whole]
    rfl
  | float number => cases floatFree
  | text content => rfl

include lexed

/-- The form of a name is read as the name. -/
theorem Token.token_form {name : Token} (made : fine name ∧ name.kind = .identifier) :
    name.form.token = name.unplaced :=
  ((lexed name made.1).standsAlone (by simp [made.2])).ofText_lexeme

theorem Token.ofText_operator {operator : Token} (isFine : fine operator)
    (listed : operator.kind ∈ Operator.allKinds) :
    Token.ofText operator.lexeme = operator.unplaced :=
  ((lexed operator isFine).standsAlone (Operator.kind_ne_of_mem_allKinds listed).1).ofText_lexeme

/-- An operator is not spelled like the head of another form. -/
theorem Token.operator_ne {operator : Token} {head : String} (isFine : fine operator)
    (listed : operator.kind ∈ Operator.allKinds)
    (other : head ∈ "=" :: "group" :: Form.statementHeads) : operator.lexeme ≠ head := by
  rintro rfl
  exact ((lexed operator isFine).isOperator listed).2 other

/-- An expression is told by its form, but for the places of its tokens. -/
theorem Expr.expr_form {expr : Expr} (made : expr.MadeOf fine) (floatFree : expr.isFloatFree) :
    expr.form.expr = expr.mapTokens Token.unplaced := by
  induction expr with
  -- A missing initializer is dumped as the word `NULL`, which is read back as a keyword.
  | literal value =>
    rcases Expr.denotable_of_madeOf lexed made with rfl | denotable
    · have whole : pieces "NULL".toList = [⟨.token .nullWord none, "NULL".toList⟩] := by
        show pieces ['N', 'U', 'L', 'L'] = _
        exact pieces_of_cut rfl
      show (Token.ofText "NULL").operand = _
      rw [Token.ofText_eq whole]
      rfl
    · exact Value.expr_form_of_denotable denotable floatFree
  | reference name =>
    have named : Token.ofText name.lexeme = name.unplaced := Token.token_form lexed made
    show (Token.ofText name.lexeme).operand = .reference name.unplaced
    rw [named]
    exact if_pos made.2
  | assign name value inductionHypothesis =>
    rw [form, Form.expr, if_pos rfl, Token.token_form lexed made.1,
      inductionHypothesis made.2 floatFree, mapTokens]
  | unary operator operand inductionHypothesis =>
    -- A unary operator is told from a group by its lexeme.
    obtain ⟨⟨isFine, prefixed⟩, operandMade⟩ := made
    have listed := Operator.mem_allKinds.mpr (.inl prefixed)
    have notGroup : operator.lexeme ≠ "group" := Token.operator_ne lexed isFine listed (by decide)
    rw [form, Form.expr, if_neg notGroup, Token.ofText_operator lexed isFine listed,
      inductionHypothesis operandMade floatFree, mapTokens]
  | binary left operator right leftHypothesis rightHypothesis =>
    obtain ⟨⟨isFine, between⟩, leftMade, rightMade⟩ := made
    obtain ⟨leftFree, rightFree⟩ := Bool.and_eq_true_iff.mp floatFree
    have listed := Operator.mem_allKinds.mpr (.inr (.inl between))
    have notAssignment : operator.lexeme ≠ "=" := Token.operator_ne lexed isFine listed (by decide)
    -- No connective is among `infixKinds`, so the form is read back as a `binary`.
    have apart : ∀ kind ∈ Operator.infixKinds, kind ∉ connectiveKinds := by decide
    rw [form, Form.expr, if_neg notAssignment, Token.ofText_operator lexed isFine listed,
      if_neg (show operator.unplaced.kind ∉ connectiveKinds from apart operator.kind between),
      leftHypothesis leftMade leftFree, rightHypothesis rightMade rightFree, mapTokens]
  | logical left operator right leftHypothesis rightHypothesis =>
    obtain ⟨⟨isFine, connects⟩, leftMade, rightMade⟩ := made
    obtain ⟨leftFree, rightFree⟩ := Bool.and_eq_true_iff.mp floatFree
    have listed := Operator.mem_allKinds.mpr (.inr (.inr connects))
    have notAssignment : operator.lexeme ≠ "=" := Token.operator_ne lexed isFine listed (by decide)
    rw [form, Form.expr, if_neg notAssignment, Token.ofText_operator lexed isFine listed,
      if_pos (show operator.unplaced.kind ∈ connectiveKinds from connects),
      leftHypothesis leftMade leftFree, rightHypothesis rightMade rightFree, mapTokens]
  | group inner inductionHypothesis =>
    rw [form, Form.expr, if_pos rfl, inductionHypothesis made floatFree, mapTokens]

/-- The form of an expression is not taken for that of another statement. -/
theorem Expr.isExpression_form {expr : Expr} (made : expr.MadeOf fine) :
    expr.form.IsExpression := by
  have operation : ∀ {operator : Token}, fine operator → operator.kind ∈ Operator.allKinds →
      operator.lexeme ∉ Form.statementHeads := fun isFine listed head =>
    Token.operator_ne lexed isFine listed (List.mem_cons_of_mem _ (List.mem_cons_of_mem _ head)) rfl
  cases expr with
  | literal value => cases value <;> trivial
  | reference name => trivial
  | assign name value =>
    show "=" ∉ Form.statementHeads
    decide
  | unary operator operand =>
    exact operation made.1.1 (Operator.mem_allKinds.mpr (.inl made.1.2))
  | binary left operator right =>
    exact operation made.1.1 (Operator.mem_allKinds.mpr (.inr (.inl made.1.2)))
  | logical left operator right =>
    exact operation made.1.1 (Operator.mem_allKinds.mpr (.inr (.inr made.1.2)))
  | group inner =>
    show "group" ∉ Form.statementHeads
    decide

/-- A declarator is read off its form. -/
theorem Declarator.declarator_form {declarator : Declarator} (made : declarator.MadeOf fine)
    (floatFree : declarator.isFloatFree) :
    declarator.form.declarator = declarator.mapTokens Token.unplaced := by
  obtain ⟨name, initializer⟩ := declarator
  have named := Token.token_form lexed made.1
  cases initializer with
  | none =>
    show (⟨name.form.token, none⟩ : Declarator) = _
    rw [named]
    rfl
  | some expr =>
    show (⟨name.form.token, some expr.form.expr⟩ : Declarator) = _
    rw [named, Expr.expr_form lexed (made.2 expr rfl) floatFree]
    rfl

end Told

namespace Stmt

variable {fine : Token → Prop}

mutual

/-- A statement is told by its form, but for what its outline leaves out. -/
theorem stmt_form (lexed : ∀ token, fine token → token.IsLexed) :
    ∀ {statement : Stmt}, statement.MadeOf fine → statement.isFloatFree →
      statement.form.stmt = statement.outline
  | .declare type names, made, floatFree => by
    have told : ∀ declarator ∈ names,
        declarator.form.declarator = declarator.mapTokens Token.unplaced :=
      fun declarator member => Declarator.declarator_form lexed (made.2 declarator member)
        (List.all_eq_true.mp floatFree declarator member)
    rw [form, Form.stmt, outline, VarType.varType_word_label, List.map_map]
    exact congrArg _ (List.map_congr_left told)
  | .expression expr, made, floatFree => by
    rw [form, Form.stmt_of_isExpression (Expr.isExpression_form lexed made),
      Expr.expr_form lexed made floatFree, outline]
  | .print expr, made, floatFree => by
    rw [form, Form.stmt, Expr.expr_form lexed made floatFree, outline]
  | .scan first others, made, _ => by
    have told : ∀ name ∈ first :: others, name.form.token = name.unplaced :=
      fun name member => Token.token_form lexed (made name member)
    obtain ⟨firstTold, othersTold⟩ := List.forall_mem_cons.mp told
    rw [form, List.map_cons, Form.stmt, outline, firstTold, List.map_map]
    exact congrArg _ (List.map_congr_left othersTold)
  | .branch keyword condition thenBranch elseBranch, made, floatFree => by
    obtain ⟨_, conditionMade, thenMade, elseMade⟩ := made
    simp only [isFloatFree, Bool.and_eq_true] at floatFree
    obtain ⟨⟨conditionFree, thenFree⟩, elseFree⟩ := floatFree
    have conditionTold := Expr.expr_form lexed conditionMade conditionFree
    have thenTold := stmt_form lexed thenMade.2 thenFree
    cases elseBranch with
    | none => rw [form, elseForms, Form.stmt, conditionTold, thenTold, outline, outlineElse]
    | some statement =>
      rw [form, elseForms, Form.stmt, conditionTold, thenTold, outline, outlineElse,
        stmt_form lexed elseMade.2 elseFree]
  | .loop keyword condition body, made, floatFree => by
    obtain ⟨_, conditionMade, bodyMade⟩ := made
    simp only [isFloatFree, Bool.and_eq_true] at floatFree
    obtain ⟨conditionFree, bodyFree⟩ := floatFree
    rw [form, Form.stmt, Expr.expr_form lexed conditionMade conditionFree,
      stmt_form lexed bodyMade.2 bodyFree, outline]
  | .block statements, made, floatFree => by
    rw [form, Form.stmt, eachStmt_eachForm lexed made floatFree, outline]

/-- Statements are read off the forms of their sequence. -/
theorem eachStmt_eachForm (lexed : ∀ token, fine token → token.IsLexed) :
    ∀ {statements : List Stmt}, EachMadeOf fine statements → eachIsFloatFree statements →
      Form.eachStmt (eachForm statements) = outlineEach statements
  | [], _, _ => rfl
  | statement :: rest, made, floatFree => by
    obtain ⟨free, restFree⟩ := Bool.and_eq_true_iff.mp floatFree
    rw [eachForm, Form.eachStmt, stmt_form lexed made.1 free,
      eachStmt_eachForm lexed made.2 restFree, outlineEach]

end

/-! ### Whole dumps -/

/-- With a line break in front of each statement, a program is printed like the body of a block. -/
theorem renderEach_cons (indent : String) (statement : Stmt) (rest : List Stmt) :
    renderEach indent 0 (statement :: rest) =
      "\n" ++ renderProgram indent (statement :: rest) := by
  induction rest generalizing statement with
  | nil => simp [renderEach, renderProgram]
  | cons second more inductionHypothesis =>
    rw [renderEach, inductionHypothesis]
    simp [renderProgram, String.intercalate_cons_cons, String.append_assoc]

/-- Only the program without statements has an empty dump. -/
theorem renderProgram_cons_ne {indent : String} {statement : Stmt} {rest : List Stmt}
    (laid : Form.Laid (eachForm (statement :: rest))
      (renderEach indent 0 (statement :: rest)).toList) :
    renderProgram indent (statement :: rest) ≠ renderProgram indent [] := by
  intro empty
  have newline : (renderEach indent 0 (statement :: rest)).toList = ['\n'] := by
    rw [renderEach_cons, empty]
    simp [renderProgram]
  rw [newline] at laid
  exact absurd laid.one_lt_length (by decide)

/-- A dump tells the forms of its statements. -/
theorem eachForm_eq_of_renderProgram {indent : String} {program other : List Stmt}
    (laid : Form.Laid (eachForm program) (renderEach indent 0 program).toList)
    (otherLaid : Form.Laid (eachForm other) (renderEach indent 0 other).toList)
    (same : renderProgram indent program = renderProgram indent other) :
    eachForm program = eachForm other := by
  cases program with
  | nil =>
    cases other with
    | nil => rfl
    | cons statement rest => exact absurd same.symm (renderProgram_cons_ne otherLaid)
  | cons statement rest =>
    cases other with
    | nil => exact absurd same (renderProgram_cons_ne laid)
    | cons second more =>
      have text : (renderEach indent 0 (statement :: rest)).toList ++ [] =
          (renderEach indent 0 (second :: more)).toList ++ [] := by
        rw [renderEach_cons, renderEach_cons, same]
      exact (laid.append_inj otherLaid Form.closes_nil Form.closes_nil text).1

theorem blank_of_mem_defaultIndent : ∀ char ∈ defaultIndent.toList, char ∈ Form.blanks := by
  have spaces : defaultIndent.toList = [' ', ' '] := rfl
  simp [spaces, Form.blanks]

end Stmt

/-- Dumps are faithful. Two programs without doubles, each parsed from tokens of source texts, have
the same dump if and only if they are the same up to the places of their tokens and the keywords of
their conditionals and loops. -/
theorem Program.dumps_faithful {tokens others : List Token} {program other : List Stmt}
    (lexed : ∀ token ∈ tokens, token.IsLexed) (othersLexed : ∀ token ∈ others, token.IsLexed)
    (parsed : (parse tokens).program = some program)
    (otherParsed : (parse others).program = some other)
    (floatFree : Stmt.eachIsFloatFree program) (otherFloatFree : Stmt.eachIsFloatFree other) :
    Stmt.renderProgram Stmt.defaultIndent program = Stmt.renderProgram Stmt.defaultIndent other ↔
      program.map Stmt.outline = other.map Stmt.outline := by
  have made := parse_madeOf parsed
  have otherMade := parse_madeOf otherParsed
  constructor
  · intro same
    have sameForms := Stmt.eachForm_eq_of_renderProgram
      (Stmt.laid_renderEach lexed Stmt.blank_of_mem_defaultIndent 0 made floatFree)
      (Stmt.laid_renderEach othersLexed Stmt.blank_of_mem_defaultIndent 0 otherMade otherFloatFree)
      same
    have told := congrArg Form.eachStmt sameForms
    rwa [Stmt.eachStmt_eachForm lexed made floatFree,
      Stmt.eachStmt_eachForm othersLexed otherMade otherFloatFree, Stmt.outlineEach_eq_map,
      Stmt.outlineEach_eq_map] at told
  · intro same
    rw [← Stmt.renderProgram_map_outline _ program, same, Stmt.renderProgram_map_outline]

/-- A loop in which a counted loop begins anew each time. -/
def repeatedSource : String :=
  "SCRIPT AREA\nSTART SCRIPT\nDECLARE INT i\nREPEAT WHEN (TRUE)\nSTART REPEAT\n" ++
    "FOR (i = -07, i < 0, )\nSTART FOR\nPRINT: '\"' & $ %% a quote\nEND FOR\n" ++
    "END REPEAT\nEND SCRIPT\n"

/-- The same with the first clause of the inner loop in front of it, and a counted loop without
clauses around both. -/
def countedSource : String :=
  "SCRIPT AREA\nSTART SCRIPT\nDECLARE INT i\nFOR (,,)\nSTART FOR\ni=-7\n" ++
    "FOR (,i<0,)\nSTART FOR\nPRINT:\"[\"]\"&[n]\nEND FOR\nEND FOR\nEND SCRIPT\n"

/-- The two scripts differ in layout, spelling and keywords, but not in their dumps. -/
theorem Program.loops_dumped_alike :
    ∃ program other, (parse (lex repeatedSource).tokens).program = some program ∧
      (parse (lex countedSource).tokens).program = some other ∧
      Stmt.eachIsFloatFree program ∧ Stmt.eachIsFloatFree other ∧
      Stmt.renderProgram Stmt.defaultIndent program =
        Stmt.renderProgram Stmt.defaultIndent other ∧
      program.map Stmt.outline = other.map Stmt.outline := by
  have dumped : (parse (lex repeatedSource).tokens).program.any fun program =>
      Stmt.eachIsFloatFree program && (parse (lex countedSource).tokens).program.any fun other =>
        Stmt.eachIsFloatFree other && Stmt.renderProgram Stmt.defaultIndent program ==
          Stmt.renderProgram Stmt.defaultIndent other := by
    decide +kernel
  obtain ⟨program, parsed, rest⟩ := (Option.any_eq_true _ _).mp dumped
  obtain ⟨floatFree, rest⟩ := Bool.and_eq_true_iff.mp rest
  obtain ⟨other, otherParsed, rest⟩ := (Option.any_eq_true _ _).mp rest
  obtain ⟨otherFloatFree, same⟩ := Bool.and_eq_true_iff.mp rest
  rw [beq_iff_eq] at same
  have faithful := dumps_faithful (fun token member => ⟨repeatedSource, member⟩)
    (fun token member => ⟨countedSource, member⟩) parsed otherParsed floatFree otherFloatFree
  exact ⟨program, other, parsed, otherParsed, floatFree, otherFloatFree, same, faithful.mp same⟩

end LineScript
