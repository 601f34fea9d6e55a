/-
Module: LineScript.Proofs.DumpLayout
Purpose: A dump shows the forms of its statements.
Trusted boundary: none
Main exports: Expr.form, Stmt.form, Token.IsLexed, Dumped, dumped
-/
import LineScript.Proofs.DumpForms
import LineScript.Proofs.OneLine
import LineScript.Proofs.SourceLiteral
import LineScript.Proofs.TokenShapes
import LineScript.Proofs.TreeTokens

/-!
The form of a tree is its dump without the layout. Trees that are made of the tokens of source texts
are shown by their printed forms: a name is a word, operators and keywords hold nothing that ends a
word, and the indentation is part of the gap in front of a statement. Literals of doubles are left
out, since what is written for a double is not looked into.
-/

namespace LineScript

/-! ### Trees without doubles -/

/-- The value is no double. -/
def Value.isFloatFree : Value → Bool
  | .float _ => false
  | _ => true

/-- No literal of the expression is a double. -/
def Expr.isFloatFree : Expr → Bool
  | .literal value => value.isFloatFree
  | .reference _ => true
  | .assign _ value => value.isFloatFree
  | .unary _ operand => operand.isFloatFree
  | .binary left _ right => left.isFloatFree && right.isFloatFree
  | .logical left _ right => left.isFloatFree && right.isFloatFree
  | .group inner => inner.isFloatFree

/-- No literal of the initializer, if there is one, is a double. -/
def Declarator.isFloatFree (declarator : Declarator) : Bool :=
  declarator.initializer.all Expr.isFloatFree

namespace Stmt

mutual

/-- No literal of the statement is a double. -/
def isFloatFree : Stmt → Bool
  | .declare _ names => names.all Declarator.isFloatFree
  | .expression expr => expr.isFloatFree
  | .print expr => expr.isFloatFree
  | .scan _ _ => true
  | .branch _ condition thenBranch elseBranch =>
    condition.isFloatFree && thenBranch.isFloatFree && elseIsFloatFree elseBranch
  | .loop _ condition body => condition.isFloatFree && body.isFloatFree
  | .block statements => eachIsFloatFree statements

/-- No literal of the other branch of a conditional, if there is one, is a double. -/
def elseIsFloatFree : Option Stmt → Bool
  | none => true
  | some statement => statement.isFloatFree

/-- No literal of some statements is a double. -/
def eachIsFloatFree : List Stmt → Bool
  | [] => true
  | statement :: rest => statement.isFloatFree && eachIsFloatFree rest

end

end Stmt

/-! ### Forms of trees -/

/-- The form of a literal. -/
def Value.form : Value → Form
  | .text content => .quoted content
  | value => .word value.display

/-- The form of a name or a type, which is a word. -/
def Token.form (token : Token) : Form :=
  .word token.lexeme

/-- The form of an expression. -/
def Expr.form : Expr → Form
  | .literal value => value.form
  | .reference name => name.form
  | .assign name value => .list "=" [name.form, value.form]
  | .unary operator operand => .list operator.lexeme [operand.form]
  | .binary left operator right => .list operator.lexeme [left.form, right.form]
  | .logical left operator right => .list operator.lexeme [left.form, right.form]
  | .group inner => .list "group" [inner.form]

/-- The form of a declared name. -/
def Declarator.form (declarator : Declarator) : Form :=
  match declarator.initializer with
  | none => declarator.name.form
  | some expr => .list "=" [declarator.name.form, expr.form]

namespace Stmt

mutual

/-- The form of a statement. -/
def form : Stmt → Form
  | .declare type names => .list "declare" (.word type.label :: names.map Declarator.form)
  | .expression expr => expr.form
  | .print expr => .list "print" [expr.form]
  | .scan first others => .list "scan" ((first :: others).map Token.form)
  | .branch _ condition thenBranch elseBranch =>
    .list "if" (condition.form :: thenBranch.form :: elseForms elseBranch)
  | .loop _ condition body => .list "when" [condition.form, body.form]
  | .block statements => .list "block" (eachForm statements)

/-- The form of the other branch of a conditional, if there is one. -/
def elseForms : Option Stmt → List Form
  | none => []
  | some statement => [statement.form]

/-- The forms of some statements. -/
def eachForm : List Stmt → List Form
  | [] => []
  | statement :: rest => statement.form :: eachForm rest

end

end Stmt

/-! ### Tokens of source texts -/

namespace Token

/-- The token is one of some source text. -/
def IsLexed (token : Token) : Prop :=
  ∃ source, token ∈ (lex source).tokens

variable {token : Token}

theorem IsLexed.standsAlone (lexed : token.IsLexed) (inside : token.kind ≠ .eof) :
    token.StandsAlone := by
  obtain ⟨source, member⟩ := lexed
  rw [lex_eq] at member
  rcases List.mem_append.mp member with placed | last
  · exact standsAlone_of_mem_placed placed
  · rw [List.mem_singleton.mp last] at inside
    exact absurd rfl inside

theorem IsLexed.denotable (lexed : token.IsLexed) {value : Value}
    (denoted : token.literal = some value) : value.Denotable := by
  obtain ⟨source, member⟩ := lexed
  exact lex_denotable source token member value denoted

/-- The lexeme was cut off some text, for a token of its kind. -/
theorem StandsAlone.exists_cut (alone : token.StandsAlone) :
    ∃ char rest, (Piece.cut char rest).1.role = .token token.kind token.literal ∧
      (Piece.cut char rest).1.text = token.lexeme.toList := by
  obtain ⟨char, tail, -, cut⟩ := alone
  exact ⟨char, tail, by rw [cut, piece], by rw [cut, piece]⟩

/-- A name is shown as it is. -/
theorem IsLexed.bare_of_identifier (lexed : token.IsLexed) (name : token.kind = .identifier) :
    Form.IsBare token.lexeme.toList := by
  obtain ⟨char, rest, role, text⟩ := (lexed.standsAlone (by simp [name])).exists_cut
  have inside := (Piece.cut_word role (by simp [name])).1
  obtain ⟨tail, nonempty, -⟩ := Piece.cut_faithful char rest
  rw [← text]
  refine ⟨by simp [nonempty], fun other member structural => ?_⟩
  have apart : ∀ char ∈ Form.structural, Piece.continuesWord char = false := by
    simp [Form.structural, Piece.continuesWord]
  have continues := inside other member
  rw [apart other structural] at continues
  cases continues

end Token

namespace Operator

/-- All operators of expressions. -/
def allKinds : List TokenKind :=
  prefixKinds ++ (infixKinds ++ Expr.connectiveKinds)

theorem mem_allKinds {kind : TokenKind} :
    kind ∈ allKinds ↔ kind ∈ prefixKinds ∨ kind ∈ infixKinds ∨ kind ∈ Expr.connectiveKinds := by
  rw [allKinds, List.mem_append, List.mem_append]

theorem kind_ne_of_mem_allKinds {token : Token} (operator : token.kind ∈ allKinds) :
    token.kind ≠ .eof ∧ token.kind ≠ .identifier := by
  have others : .eof ∉ allKinds ∧ .identifier ∉ allKinds := by decide
  exact ⟨fun last => others.1 (last ▸ operator), fun name => others.2 (name ▸ operator)⟩

end Operator

namespace Form

/-- The words in front of statements. -/
def statementHeads : List String :=
  ["declare", "print", "scan", "if", "when", "block"]

/-- The word stands in front of operations only: not of assignments, groups or statements. -/
def IsOperator (word : String) : Prop :=
  IsBare word.toList ∧ word ∉ "=" :: "group" :: statementHeads

instance (word : String) : Decidable (IsOperator word) :=
  inferInstanceAs (Decidable (_ ∧ _))

end Form

/-- A reserved word is spelled like its label. -/
theorem TokenKind.eq_label_of_ofWord {word : String} {kind : TokenKind} (same : kind = ofWord word)
    (reserved : kind ≠ .identifier) : word = kind.label := by
  unfold ofWord at same
  cases found : keywords.find? fun kind => kind.label == word with
  | none =>
    rw [found] at same
    exact absurd same reserved
  | some keyword =>
    rw [found, Option.getD_some] at same
    rw [same]
    have spelled := List.find?_some found
    exact (beq_iff_eq.mp spelled).symm

/-- The lexeme of an operator is told from the other words in front of lists. -/
theorem Token.IsLexed.isOperator {token : Token} (lexed : token.IsLexed)
    (operator : token.kind ∈ Operator.allKinds) : Form.IsOperator token.lexeme := by
  obtain ⟨inside, reserved⟩ := Operator.kind_ne_of_mem_allKinds operator
  obtain ⟨char, rest, role, text⟩ := (lexed.standsAlone inside).exists_cut
  rw [← String.ofList_toList (s := token.lexeme), ← text]
  rcases Piece.cut_cases role with wordless | ⟨word, -⟩ | spelled
  · have apart : ∀ kind ∈ Operator.allKinds, kind ∉ TokenKind.wordless := by decide
    exact absurd wordless (apart _ operator)
  · have labels : ∀ kind ∈ Operator.allKinds, kind ∈ TokenKind.keywords →
        Form.IsOperator kind.label := by decide +kernel
    rw [word] at role ⊢
    have same := (Piece.cutWord_kind role).1
    have listed : token.kind ∈ .identifier :: TokenKind.keywords := same ▸ TokenKind.ofWord_mem _
    rw [TokenKind.eq_label_of_ofWord same reserved]
    exact labels _ operator (List.mem_of_ne_of_mem reserved listed)
  · have spellings : ∀ spelling ∈ TokenKind.spellings, spelling.1 ∈ Operator.allKinds →
        Form.IsOperator (String.ofList spelling.2) := by decide +kernel
    have listed := spellings _ spelled operator
    exact listed

/-! ### Layout of lists -/

namespace Form

variable {form : Form} {others : List Form} {text behind : List Char}

theorem isGap_append {gap pad : List Char} (blank : IsGap gap)
    (padBlank : ∀ char ∈ pad, char ∈ blanks) : IsGap (gap ++ pad) :=
  ⟨List.append_ne_nil_of_left_ne_nil blank.1 pad, List.forall_mem_append.mpr ⟨blank.2, padBlank⟩⟩

theorem isGap_space : IsGap [' '] := by
  simp [IsGap, blanks]

theorem isGap_newline : IsGap ['\n'] := by
  simp [IsGap, blanks]

/-- A part on the same line. -/
theorem Laid.spaced (shown : form.Shown text) (laid : Laid others behind) :
    Laid (form :: others) (' ' :: (text ++ behind)) :=
  .cons isGap_space shown laid

/-- A part on a line of its own, whatever its indentation. -/
theorem Laid.line {pad : List Char} (padBlank : ∀ char ∈ pad, char ∈ blanks)
    (shown : form.Shown text) (laid : Laid others behind) :
    Laid (form :: others) ('\n' :: (pad ++ (text ++ behind))) := by
  have blank := isGap_append isGap_newline padBlank
  simpa using Laid.cons blank shown laid

/-- Parts with a gap between each two, and one in front of them. -/
theorem laid_intercalate {α : Type} {form : α → Form} {render : α → String} (gap : String)
    (blank : IsGap gap.toList) {items : List α} (listed : items ≠ [])
    (shown : ∀ item ∈ items, (form item).Shown (render item).toList) :
    Laid (items.map form) (gap.toList ++ (gap.intercalate (items.map render)).toList) := by
  rw [String.toList_intercalate, List.map_map]
  induction items with
  | nil => exact absurd rfl listed
  | cons item rest inductionHypothesis =>
    obtain ⟨first, restShown⟩ := List.forall_mem_cons.mp shown
    cases rest with
    | nil =>
      simpa using Laid.cons blank first .nil
    | cons second more =>
      have further := inductionHypothesis (List.cons_ne_nil _ _) restShown
      have whole := Laid.cons blank first further
      simpa [List.intercalate_cons_cons] using whole

end Form

/-! ### What is printed shows its form -/

/-- A natural number is printed by its digits. -/
theorem Number.toList_intText_natCast (number : Nat) :
    (intText number).toList = natDigits number := by
  rw [intText, if_neg (Int.not_lt.mpr (Int.natCast_nonneg number)), Int.natAbs_natCast, natText,
    String.toList_ofList]

section Printed

variable {fine : Token → Prop} (lexed : ∀ token, fine token → token.IsLexed)

theorem Value.shown_of_denotable {value : Value} (denotable : value.Denotable)
    (floatFree : value.isFloatFree) : value.form.Shown (Expr.renderLiteral value).toList := by
  cases denotable with
  | bool truth =>
    refine .word ?_
    cases truth <;> decide
  | int small =>
    rename_i number
    refine .word ?_
    have digits : (Value.int number).display.toList = Number.natDigits number :=
      Number.toList_intText_natCast number
    rw [digits]
    refine ⟨Nat.toDigits_ne_nil, fun char member structural => ?_⟩
    have apart : ∀ char ∈ Form.structural, char.isDigit = false := by simp [Form.structural]
    have digit := Number.isDigit_of_mem_natDigits member
    rw [apart char structural] at digit
    cases digit
  | float number => cases floatFree
  | text content =>
    show (Form.quoted content).Shown (quoted content).toList
    rw [quoted, String.toList_ofList]
    exact .quoted content

include lexed

/-- A literal is null, or a token denotes what it is. -/
theorem Expr.denotable_of_madeOf {value : Value} (made : (Expr.literal value).MadeOf fine) :
    value = .null ∨ value.Denotable := by
  rcases made with undenoted | ⟨token, isFine, denoted⟩
  · simp only [Expr.undenoted, List.mem_cons, List.not_mem_nil, or_false] at undenoted
    rcases undenoted with rfl | rfl | rfl
    · exact .inl rfl
    · exact .inr (.text _)
    · exact .inr (.bool true)
  · exact .inr ((lexed token isFine).denotable denoted)

theorem Token.shown_of_identifier {name : Token} (made : fine name ∧ name.kind = .identifier) :
    name.form.Shown name.lexeme.toList :=
  .word ((lexed name made.1).bare_of_identifier made.2)

/-- An operator in front of what it is applied to. -/
theorem Token.shown_of_operator {operator : Token} {parts : List Form} {inside : List Char}
    (isFine : fine operator) (listed : operator.kind ∈ Operator.allKinds)
    (laid : Form.Laid parts inside) :
    (Form.list operator.lexeme parts).Shown
      ('(' :: (operator.lexeme.toList ++ (inside ++ [')']))) :=
  .list _ ((lexed operator isFine).isOperator listed).1 laid

/-- An operator in front of two operands. -/
theorem Token.shown_of_operands {operator : Token} {left right : Expr} (isFine : fine operator)
    (listed : operator.kind ∈ Operator.allKinds) (leftShown : left.form.Shown left.render.toList)
    (rightShown : right.form.Shown right.render.toList) :
    (Form.list operator.lexeme [left.form, right.form]).Shown
      ("(" ++ operator.lexeme ++ " " ++ left.render ++ " " ++ right.render ++ ")").toList := by
  have parts := Form.Laid.spaced leftShown (.spaced rightShown .nil)
  simpa using Token.shown_of_operator lexed isFine listed parts

theorem Expr.shown {expr : Expr} (made : expr.MadeOf fine) (floatFree : expr.isFloatFree) :
    expr.form.Shown expr.render.toList := by
  induction expr with
  | literal value =>
    rcases Expr.denotable_of_madeOf lexed made with rfl | denotable
    · exact .word (by decide)
    · exact Value.shown_of_denotable denotable floatFree
  | reference name => exact Token.shown_of_identifier lexed made
  | assign name value inductionHypothesis =>
    have parts := Form.Laid.spaced (Token.shown_of_identifier lexed made.1)
      (.spaced (inductionHypothesis made.2 floatFree) .nil)
    simpa [render, form] using Form.Shown.list "=" (by decide) parts
  | unary operator operand inductionHypothesis =>
    obtain ⟨⟨isFine, prefixed⟩, operandMade⟩ := made
    have listed := Operator.mem_allKinds.mpr (.inl prefixed)
    have parts := Form.Laid.spaced (inductionHypothesis operandMade floatFree) .nil
    simpa [render, form] using Token.shown_of_operator lexed isFine listed parts
  | binary left operator right leftHypothesis rightHypothesis =>
    obtain ⟨⟨isFine, between⟩, leftMade, rightMade⟩ := made
    obtain ⟨leftFree, rightFree⟩ := Bool.and_eq_true_iff.mp floatFree
    exact Token.shown_of_operands lexed isFine (Operator.mem_allKinds.mpr (.inr (.inl between)))
      (leftHypothesis leftMade leftFree) (rightHypothesis rightMade rightFree)
  | logical left operator right leftHypothesis rightHypothesis =>
    obtain ⟨⟨isFine, connects⟩, leftMade, rightMade⟩ := made
    obtain ⟨leftFree, rightFree⟩ := Bool.and_eq_true_iff.mp floatFree
    exact Token.shown_of_operands lexed isFine (Operator.mem_allKinds.mpr (.inr (.inr connects)))
      (leftHypothesis leftMade leftFree) (rightHypothesis rightMade rightFree)
  | group inner inductionHypothesis =>
    have parts := Form.Laid.spaced (inductionHypothesis made floatFree) .nil
    simpa [render, form] using Form.Shown.list "group" (by decide) parts

theorem Declarator.shown {declarator : Declarator} (made : declarator.MadeOf fine)
    (floatFree : declarator.isFloatFree) :
    declarator.form.Shown (Stmt.renderDeclarator declarator).toList := by
  obtain ⟨name, initializer⟩ := declarator
  have named := Token.shown_of_identifier lexed made.1
  cases initializer with
  | none => exact named
  | some expr =>
    have initial := Expr.shown lexed (made.2 expr rfl) floatFree
    have parts := Form.Laid.spaced named (.spaced initial .nil)
    simpa [Stmt.renderDeclarator, form] using Form.Shown.list "=" (by decide) parts

end Printed

namespace Stmt

/-- Behind the white space in front of it, the printed form of a statement shows its form. -/
def Dumped (indent : String) (depth : Nat) (statement : Stmt) : Prop :=
  ∃ text, (statement.render indent depth).toList = (pad indent depth).toList ++ text ∧
    statement.form.Shown text

variable {fine : Token → Prop} {indent : String}

theorem blank_of_mem_pad (blank : ∀ char ∈ indent.toList, char ∈ Form.blanks) (depth : Nat) :
    ∀ char ∈ (pad indent depth).toList, char ∈ Form.blanks := by
  intro char member
  rw [pad, String.toList_join, List.mem_flatMap] at member
  obtain ⟨part, listed, member⟩ := member
  rw [List.eq_of_mem_replicate listed] at member
  exact blank char member

mutual

/-- A statement may be printed at any depth. -/
theorem dumped (lexed : ∀ token, fine token → token.IsLexed)
    (blank : ∀ char ∈ indent.toList, char ∈ Form.blanks) (depth : Nat) :
    ∀ {statement : Stmt}, statement.MadeOf fine → statement.isFloatFree →
      statement.Dumped indent depth
  | .declare type names, made, floatFree => by
    have shown : ∀ declarator ∈ names,
        declarator.form.Shown (renderDeclarator declarator).toList := fun declarator member =>
      Declarator.shown lexed (made.2 declarator member) (List.all_eq_true.mp floatFree _ member)
    have label : Form.IsBare type.label.toList := by cases type <;> decide
    have parts := Form.Laid.spaced (.word label)
      (Form.laid_intercalate " " Form.isGap_space made.1 shown)
    exact ⟨_, by simp [render, spaced], .list "declare" (by decide) parts⟩
  | .expression expr, made, floatFree => by
    exact ⟨_, by simp [render], Expr.shown lexed made floatFree⟩
  | .print expr, made, floatFree => by
    have parts := Form.Laid.spaced (Expr.shown lexed made floatFree) .nil
    exact ⟨_, by simp [render], .list "print" (by decide) parts⟩
  | .scan first others, made, _ => by
    have listed := List.cons_ne_nil first others
    have parts := Form.laid_intercalate " " Form.isGap_space listed fun name member =>
      Token.shown_of_identifier lexed (made name member)
    exact ⟨_, by simp [render, spaced], .list "scan" (by decide) parts⟩
  | .branch keyword condition thenBranch elseBranch, made, floatFree => by
    obtain ⟨_, conditionMade, thenMade, elseMade⟩ := made
    simp only [isFloatFree, Bool.and_eq_true] at floatFree
    obtain ⟨⟨conditionFree, thenFree⟩, elseFree⟩ := floatFree
    obtain ⟨text, same, shown⟩ := dumped lexed blank (depth + 1) thenMade.2 thenFree
    have parts := Form.Laid.spaced (Expr.shown lexed conditionMade conditionFree)
      (.line (blank_of_mem_pad blank (depth + 1)) shown
        (laid_renderElse lexed blank (depth + 1) elseMade elseFree))
    exact ⟨_, by simp [render, same], .list "if" (by decide) parts⟩
  | .loop keyword condition body, made, floatFree => by
    obtain ⟨_, conditionMade, bodyMade⟩ := made
    simp only [isFloatFree, Bool.and_eq_true] at floatFree
    obtain ⟨conditionFree, bodyFree⟩ := floatFree
    obtain ⟨text, same, shown⟩ := dumped lexed blank (depth + 1) bodyMade.2 bodyFree
    have parts := Form.Laid.spaced (Expr.shown lexed conditionMade conditionFree)
      (.line (blank_of_mem_pad blank (depth + 1)) shown .nil)
    exact ⟨_, by simp [render, same], .list "when" (by decide) parts⟩
  | .block statements, made, floatFree => by
    have parts := laid_renderEach lexed blank (depth + 1) made floatFree
    exact ⟨_, by simp [render], .list "block" (by decide) parts⟩

theorem laid_renderElse (lexed : ∀ token, fine token → token.IsLexed)
    (blank : ∀ char ∈ indent.toList, char ∈ Form.blanks) (depth : Nat) :
    ∀ {elseBranch : Option Stmt}, ElseMadeOf fine elseBranch → elseIsFloatFree elseBranch →
      Form.Laid (elseForms elseBranch) (renderElse indent depth elseBranch).toList
  | none, _, _ => .nil
  | some statement, made, floatFree => by
    obtain ⟨text, same, shown⟩ := dumped lexed blank depth made.2 floatFree
    simpa [renderElse, elseForms, same] using
      Form.Laid.line (blank_of_mem_pad blank depth) shown .nil

theorem laid_renderEach (lexed : ∀ token, fine token → token.IsLexed)
    (blank : ∀ char ∈ indent.toList, char ∈ Form.blanks) (depth : Nat) :
    ∀ {statements : List Stmt}, EachMadeOf fine statements → eachIsFloatFree statements →
      Form.Laid (eachForm statements) (renderEach indent depth statements).toList
  | [], _, _ => .nil
  | statement :: rest, made, floatFree => by
    obtain ⟨free, restFree⟩ := Bool.and_eq_true_iff.mp floatFree
    obtain ⟨text, same, shown⟩ := dumped lexed blank depth made.1 free
    have further := laid_renderEach lexed blank depth made.2 restFree
    simpa [renderEach, eachForm, same] using
      Form.Laid.line (blank_of_mem_pad blank depth) shown further

end

end Stmt

end LineScript
