/-
Module: LineScript.Proofs.AnalysisRanges
Purpose: The stretches that an editor is told for symbols and errors are places of its document.
Trusted boundary: none
Main exports: Span.Covers, Span.Apart, Symbol.Shows, Notice.Shows, analysis_ranges_faithful
-/
import LineScript.Proofs.NameOrder
import LineScript.Proofs.ParsedTree
import LineScript.Proofs.StaticGate
import LineScript.Proofs.TextPlaces
import Mathlib.Data.List.Forall2

/-!
An editor counts the lines and columns of a document from zero, the lexer from one. A symbol is made
of the token of a declared name, so its stretch covers that name in the document, and the symbols
stand there in their order and apart. A notice is made of a report, which is made of a token or of a
rejected fragment, so it starts inside the document even if it is about its end.
-/

namespace LineScript

/-! ### All declarations of a program -/

namespace Stmt

mutual

/-- The names that are declared in a statement, however deep, with their types. -/
def everyDeclared : Stmt → List (VarType × Declarator)
  | .declare type names => names.map fun declarator => (type, declarator)
  | .expression _ | .print _ | .scan _ _ => []
  | .branch _ _ thenBranch elseBranch => thenBranch.everyDeclared ++ elseEveryDeclared elseBranch
  | .loop _ _ body => body.everyDeclared
  | .block statements => eachEveryDeclared statements

/-- The names that are declared in the other branch of a conditional, if there is one. -/
def elseEveryDeclared : Option Stmt → List (VarType × Declarator)
  | none => []
  | some statement => statement.everyDeclared

/-- The names that are declared in some statements. -/
def eachEveryDeclared : List Stmt → List (VarType × Declarator)
  | [] => []
  | statement :: rest => statement.everyDeclared ++ eachEveryDeclared rest

end

mutual

/-- A statement that declares nothing has no declarations in its parts. -/
theorem everyDeclared_of_executable :
    ∀ statement : Stmt, statement.Executable → statement.everyDeclared = []
  | .declare _ _, impossible => impossible.elim
  | .expression _, _ | .print _, _ | .scan _ _, _ => by rw [everyDeclared]
  | .branch _ _ thenBranch elseBranch, parts => by
    rw [everyDeclared, everyDeclared_of_executable thenBranch parts.1,
      elseEveryDeclared_of_executable elseBranch parts.2, List.append_nil]
  | .loop _ _ body, inside => by rw [everyDeclared, everyDeclared_of_executable body inside]
  | .block statements, inside => by
    rw [everyDeclared, eachEveryDeclared_of_executable statements inside]

theorem elseEveryDeclared_of_executable :
    ∀ statement : Option Stmt, ElseExecutable statement → elseEveryDeclared statement = []
  | none, _ => by rw [elseEveryDeclared]
  | some statement, inside => by
    rw [elseEveryDeclared, everyDeclared_of_executable statement inside]

theorem eachEveryDeclared_of_executable :
    ∀ statements : List Stmt, EachExecutable statements → eachEveryDeclared statements = []
  | [], _ => by rw [eachEveryDeclared]
  | statement :: rest, inside => by
    rw [eachEveryDeclared, everyDeclared_of_executable statement inside.1,
      eachEveryDeclared_of_executable rest inside.2, List.append_nil]

end

end Stmt

namespace Program

/-- The declarations in front of a program are all that it holds. -/
theorem Ordered.eachEveryDeclared {program : List Stmt} (ordered : Ordered program) :
    Stmt.eachEveryDeclared program = declared program := by
  induction ordered with
  | statements executable =>
    rw [Stmt.eachEveryDeclared_of_executable _ executable, declared_of_executable executable]
  | declaration _ inductionHypothesis =>
    rw [Stmt.eachEveryDeclared, inductionHypothesis, declared, declared, List.flatMap_cons,
      Stmt.everyDeclared, Stmt.declared]

/-- The names declared in a tree are tokens of the tree. -/
theorem declared_madeOf {fine : Token → Prop} {program : List Stmt}
    (made : Stmt.EachMadeOf fine program) :
    ∀ declaration ∈ declared program, declaration.2.MadeOf fine := by
  intro declaration member
  obtain ⟨statement, listed, inside⟩ := List.mem_flatMap.mp member
  have parts := Stmt.eachMadeOf_iff.mp made statement listed
  cases statement with
  | declare type names =>
    obtain ⟨declarator, named, rfl⟩ := List.mem_map.mp inside
    exact parts.2 declarator named
  | _ => cases inside

/-- The declared names stand in the text, each clear of those in front of it. -/
theorem declared_show {source : String} {program : List Stmt}
    (parsed : (parse (lex source).tokens).program = some program) :
    (∀ declaration ∈ declared program, '\n' ∉ declaration.2.name.lexeme.toList ∧
      declaration.2.name.position.Shows [] source.toList declaration.2.name.lexeme.toList) ∧
    (declared program).Pairwise fun one two => one.2.name.ClearOf two.2.name := by
  obtain ⟨shown, clear⟩ := (lex_tiling source).tokens_show
  constructor
  · intro declaration member
    have name := (declared_madeOf (parse_madeOf parsed) declaration member).1
    constructor
    · rw [(lex_tiling source).mem_newline_iff _ name.1, name.2]
      exact TokenKind.noConfusion
    · exact shown _ name.1
  · have sublist := declaredNames_sublist (lex_tokens_ne_nil source) (lex_closed source) parsed
    exact List.pairwise_map.mp (clear.sublist sublist)

end Program

namespace Editor

/-! ### Stretches of a document -/

namespace Span

/-- The stretch is that of the text's given characters in one of its lines. -/
def Covers (span : Span) (text name : String) : Prop :=
  ∃ line front back, (Text.lines text.toList)[line]? = some (front ++ (name.toList ++ back)) ∧
    span = ⟨line, front.length, line, front.length + name.toList.length⟩

/-- The stretch starts at a place of the text, which may be the end of a line. -/
def StartsIn (span : Span) (text : String) : Prop :=
  ∃ line, (Text.lines text.toList)[span.startLine]? = some line ∧ span.startColumn ≤ line.length

/-- The place is in the stretch. -/
def Holds (span : Span) (line column : Nat) : Prop :=
  (span.startLine < line ∨ span.startLine = line ∧ span.startColumn ≤ column) ∧
    (line < span.endLine ∨ line = span.endLine ∧ column < span.endColumn)

/-- No place is in both stretches. -/
def Apart (one two : Span) : Prop :=
  ∀ line column, ¬ (one.Holds line column ∧ two.Holds line column)

/-- The first stretch starts in an earlier line, or further left in the same line. -/
def StartsBefore (one two : Span) : Prop :=
  one.startLine < two.startLine ∨
    one.startLine = two.startLine ∧ one.startColumn < two.startColumn

end Span

/-- What the symbol of a declaration says: the name, the document, the place of the name counted
from zero, and the declaration. -/
structure Symbol.Shows (uri : String) (declaration : VarType × Declarator) (symbol : Symbol) :
    Prop where
  name : symbol.name = declaration.2.name.lexeme
  uri : symbol.uri = uri
  place : declaration.2.name.position = ⟨symbol.line + 1, symbol.column + 1⟩
  detail : symbol.detail = "DECLARE " ++ declaration.1.label ++ " " ++ declaration.2.name.lexeme

/-- What the notice of a report says: the message and the place of the report counted from zero, and
that it is an error found by the language and not by something else. -/
structure Notice.Shows (report : Report) (notice : Notice) : Prop where
  message : notice.message = report.message
  severity : notice.severity = .error
  source : notice.source = "lexor"
  place : report.position = ⟨notice.span.startLine + 1, notice.span.startColumn + 1⟩

/-! ### Symbols -/

/-- A document has symbols just when it is parsed without an error, and then one for each name
declared, in order. -/
theorem symbols_eq_some_iff {uri text : String} {symbols : List Symbol} :
    (analyze uri text).symbols = some symbols ↔
      ∃ program, (Program.parse (lex text).tokens).program = some program ∧
        (Program.declared program).map (fun declaration =>
          Symbol.ofDeclarator uri declaration.1 declaration.2) = symbols := by
  simp [analyze, flatMap_symbolsOf]

section Declared

variable {uri text : String} {declaration : VarType × Declarator}

/-- A symbol carries the name, the type and the place of its declaration. -/
theorem Symbol.shows_ofDeclarator {shown : List Char}
    (shows : declaration.2.name.position.Shows [] text.toList shown) :
    Symbol.Shows uri declaration (.ofDeclarator uri declaration.1 declaration.2) := by
  obtain ⟨line, column, place, _⟩ := shows.inLine
  exact ⟨rfl, rfl, by simp [Symbol.ofDeclarator, place], rfl⟩

/-- It covers the name, which lies on one line. -/
theorem Span.covers_ofDeclarator (oneLine : '\n' ∉ declaration.2.name.lexeme.toList)
    (shows : declaration.2.name.position.Shows [] text.toList
      declaration.2.name.lexeme.toList) :
    (Symbol.ofDeclarator uri declaration.1 declaration.2).span.Covers text
      declaration.2.name.lexeme := by
  obtain ⟨line, column, place, front, rest, found, width, inFront⟩ := shows.inLine
  obtain ⟨back, rfl⟩ := inFront oneLine
  exact ⟨line, front, back, found, by simp [Symbol.span, Symbol.ofDeclarator, place, width,
    ← String.length_toList]⟩

end Declared

/-- Symbols come in the order of the names. -/
theorem Symbol.Shows.startsBefore {uri : String} {one two : VarType × Declarator}
    {symbol other : Symbol} (first : Symbol.Shows uri one symbol)
    (second : Symbol.Shows uri two other) (precedes : one.2.name.Precedes two.2.name) :
    symbol.span.StartsBefore other.span := by
  unfold Token.Precedes Position.Before at precedes
  rw [first.place, second.place] at precedes
  unfold Span.StartsBefore Symbol.span
  dsimp only at precedes ⊢
  omega

/-- They do not overlap. -/
theorem Symbol.Shows.apart {uri : String} {one two : VarType × Declarator}
    {symbol other : Symbol} (first : Symbol.Shows uri one symbol)
    (second : Symbol.Shows uri two other) (clear : one.2.name.ClearOf two.2.name) :
    symbol.span.Apart other.span := by
  intro line column both
  unfold Token.ClearOf at clear
  rw [first.place, second.place, ← first.name, String.length_toList] at clear
  unfold Span.Holds Symbol.span at both
  dsimp only at both clear
  omega

/-! ### Notices -/

/-- There is one notice for each report, in order. -/
theorem notices_eq (uri text : String) :
    (analyze uri text).notices = (staticReports text).map Notice.ofReport := rfl

/-- Every static error is reported at a place of the text. -/
theorem shows_of_mem_staticReports {text : String} :
    ∀ report ∈ staticReports text, ∃ shown, report.position.Shows [] text.toList shown := by
  intro report member
  rcases List.mem_append.mp member with lexical | grammatical
  · obtain ⟨error, listed, rfl⟩ := List.mem_map.mp lexical
    exact ⟨_, (lex_tiling text).errors_show error listed⟩
  · obtain ⟨error, listed, rfl⟩ := List.mem_map.mp grammatical
    have token := Program.token_mem_of_mem_errors (lex_tokens_ne_nil text) listed
    exact ⟨_, (lex_tiling text).tokens_show.1 _ token⟩

/-- A notice starts where the error is and tells its message. -/
theorem Notice.shows_ofReport {text : String} {shown : List Char} {report : Report}
    (shows : report.position.Shows [] text.toList shown) :
    Notice.Shows report (.ofReport report) ∧ (Notice.ofReport report).span.StartsIn text := by
  obtain ⟨line, column, place, front, rest, found, width, _⟩ := shows.inLine
  have span : (Notice.ofReport report).span = ⟨line, column, line, column + 1⟩ := by
    simp [Notice.ofReport, place]
  constructor
  · exact ⟨rfl, rfl, rfl, by rw [span, place]⟩
  · rw [Span.StartsIn, span]
    exact ⟨_, found, by simp [← width]⟩

/-! ### Analysis -/

/-- What an editor is told about a document is placed in it. If the document parses, there is one
symbol for each name that its program declares, however deep, in order: it shows the name at the
place of its token, its stretch covers the characters of the name, and each starts before all that
come later and shares no place with them. Whatever the document is, there is one notice for each
lexical or syntax error that is recorded for it, in order, at the place of its report: no line or
column is cut off at zero, and each notice starts inside the document. -/
theorem analysis_ranges_faithful (uri text : String) :
    (∀ symbols, (analyze uri text).symbols = some symbols →
      (∃ program, (Program.parse (lex text).tokens).program = some program ∧
        List.Forall₂ (Symbol.Shows uri) (Stmt.eachEveryDeclared program) symbols) ∧
      (symbols.Pairwise fun one two =>
        one.span.StartsBefore two.span ∧ one.span.Apart two.span) ∧
      ∀ symbol ∈ symbols, symbol.span.Covers text symbol.name) ∧
    List.Forall₂ Notice.Shows
      ((Program.parse (lex text).tokens).errors.foldl Log.addSyntactic
        ((lex text).errors.foldl Log.addLexical Log.empty)).reports
      (analyze uri text).notices ∧
    ∀ notice ∈ (analyze uri text).notices, notice.span.StartsIn text := by
  refine ⟨fun symbols analyzed => ?_, ?_, ?_⟩
  · obtain ⟨program, parsed, rfl⟩ := symbols_eq_some_iff.mp analyzed
    obtain ⟨shown, clear⟩ := Program.declared_show parsed
    have shows : ∀ declaration ∈ Program.declared program,
        Symbol.Shows uri declaration (.ofDeclarator uri declaration.1 declaration.2) :=
      fun declaration member => Symbol.shows_ofDeclarator (shown declaration member).2
    refine ⟨⟨program, parsed, ?_⟩, ?_, ?_⟩
    · rw [(Program.parse_ordered parsed).eachEveryDeclared, List.forall₂_map_right_iff]
      exact List.forall₂_same.mpr shows
    -- The names stand apart in the text and in order, and a symbol spans just its name.
    · apply List.pairwise_map.mpr
      apply ((Program.declared_sorted parsed).and clear).imp_of_mem
      intro one two member otherMember ordered
      have first := shows one member
      have second := shows two otherMember
      exact ⟨first.startsBefore second ordered.1, first.apart second ordered.2⟩
    · intro symbol member
      obtain ⟨declaration, listed, rfl⟩ := List.mem_map.mp member
      exact Span.covers_ofDeclarator (shown declaration listed).1 (shown declaration listed).2
  -- The log keeps reports in the order they are added: lexical before syntactic.
  · have recorded : ((Program.parse (lex text).tokens).errors.foldl Log.addSyntactic
        ((lex text).errors.foldl Log.addLexical Log.empty)).reports = staticReports text := by
      rw [Log.reports_foldl Log.addSyntactic_reports, Log.reports_foldl Log.addLexical_reports]
      rfl
    rw [recorded, notices_eq, List.forall₂_map_right_iff]
    apply List.forall₂_same.mpr
    intro report member
    obtain ⟨_, shows⟩ := shows_of_mem_staticReports report member
    exact (Notice.shows_ofReport shows).1
  · intro notice member
    rw [notices_eq] at member
    obtain ⟨report, listed, rfl⟩ := List.mem_map.mp member
    obtain ⟨_, shows⟩ := shows_of_mem_staticReports report listed
    exact (Notice.shows_ofReport shows).2

/-- A script that declares names behind a character of two units and behind initializers. -/
def waving : String :=
  "SCRIPT AREA\nSTART SCRIPT\nDECLARE STRING s=\"👋\", b\n%% counts\nDECLARE INT n=1, m=n\n" ++
    "END SCRIPT\n"

theorem waving_ranges_faithful :
    ∃ symbols, (analyze "a.script" waving).symbols = some symbols ∧
      symbols.map Symbol.name = ["s", "b", "n", "m"] ∧
      (symbols.Pairwise fun one two =>
        one.span.StartsBefore two.span ∧ one.span.Apart two.span) ∧
      ∀ symbol ∈ symbols, symbol.span.Covers waving symbol.name := by
  have computed : (analyze "a.script" waving).symbols.map (List.map Symbol.name) =
      some ["s", "b", "n", "m"] := by
    decide +kernel
  obtain ⟨symbols, analyzed, names⟩ := Option.map_eq_some_iff.mp computed
  have faithful := (analysis_ranges_faithful "a.script" waving).1 symbols analyzed
  exact ⟨symbols, analyzed, names, faithful.2⟩

end Editor

end LineScript
