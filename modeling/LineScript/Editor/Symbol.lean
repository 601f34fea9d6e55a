/-
Module: LineScript.Editor.Symbol
Purpose: What an editor shows about a document: declared variables and errors.
Trusted boundary: the numbers and words by which the editor protocol calls a severity, a kind of
  symbol and a form of text are the protocol's own and stand here as they are sent.
Main exports: Span, Symbol, OutlineEntry, Markup, Notice, Analysis, analyze
-/
import LineScript.Program

/-!
A document is lexed and parsed without being run. Its declarations become symbols, if it parses, and
its errors become notices. Editors count lines and columns from zero. A notice, an entry of the
outline and a text for the user are complete here, down to what is the same in all of them.
-/

namespace LineScript.Editor

/-- A stretch of a document, from its start up to but not including its end. -/
structure Span where
  startLine : Nat
  startColumn : Nat
  endLine : Nat
  endColumn : Nat
  deriving DecidableEq, Repr, Inhabited

/-- A declared variable of a document. -/
structure Symbol where
  name : String
  uri : String
  line : Nat
  column : Nat
  /-- The declaration, as shown to the user. -/
  detail : String
  deriving DecidableEq, Repr, Inhabited

/-- The stretch of a symbol's name. -/
def Symbol.span (symbol : Symbol) : Span :=
  ⟨symbol.line, symbol.column, symbol.line, symbol.column + symbol.name.length⟩

/-- What a symbol stands for. -/
inductive SymbolKind where
  | variable
  deriving DecidableEq, Repr, Inhabited

/-- The number of a kind of symbol in the editor protocol. -/
def SymbolKind.code : SymbolKind → Nat
  | .variable => 13

/-- A declared variable in the outline of a document. -/
structure OutlineEntry where
  name : String
  kind : SymbolKind
  /-- The stretch of the whole entry. -/
  span : Span
  /-- The stretch that is selected when the entry is chosen. -/
  selection : Span
  detail : String
  deriving DecidableEq, Repr, Inhabited

/-- The entry of a symbol is selected whole. -/
def Symbol.outlineEntry (symbol : Symbol) : OutlineEntry :=
  ⟨symbol.name, .variable, symbol.span, symbol.span, symbol.detail⟩

/-- How a text for the user is to be read. -/
inductive MarkupKind where
  | plainText
  deriving DecidableEq, Repr, Inhabited

/-- The word for a form of text in the editor protocol. -/
def MarkupKind.label : MarkupKind → String
  | .plainText => "plaintext"

/-- A text for the user. -/
structure Markup where
  kind : MarkupKind
  text : String
  deriving DecidableEq, Repr, Inhabited

/-- Where only its characters matter, a text for the user stands for them. -/
instance : Coe Markup String := ⟨Markup.text⟩

/-- The declaration of a symbol is shown as it is written. -/
def Symbol.hover (symbol : Symbol) : Markup :=
  ⟨.plainText, symbol.detail⟩

/-- How serious a notice is. -/
inductive Severity where
  | error
  deriving DecidableEq, Repr, Inhabited

/-- The number of a severity in the editor protocol. -/
def Severity.code : Severity → Nat
  | .error => 1

/-- The name by which the user is told where a notice comes from. -/
def noticeSource : String := "lexor"

/-- An error of a document. -/
structure Notice where
  span : Span
  message : String
  severity : Severity
  source : String
  deriving DecidableEq, Repr, Inhabited

/-- The notice of a report covers the one character at its position. -/
def Notice.ofReport (report : Report) : Notice :=
  let line := report.position.line - 1
  let column := report.position.column - 1
  ⟨⟨line, column, line, column + 1⟩, report.message, .error, noticeSource⟩

/-- The symbol of a declared name. -/
def Symbol.ofDeclarator (uri : String) (type : VarType) (declarator : Declarator) : Symbol :=
  let name := declarator.name
  { name := name.lexeme
    uri
    line := name.position.line - 1
    column := name.position.column - 1
    detail := "DECLARE " ++ type.label ++ " " ++ name.lexeme }

/-- The symbols that a statement declares. -/
def symbolsOf (uri : String) : Stmt → List Symbol
  | .declare type names => names.map (Symbol.ofDeclarator uri type)
  | _ => []

/-- What is known about a document. -/
structure Analysis where
  /-- The declared variables in order, if the document parses. -/
  symbols : Option (List Symbol)
  notices : List Notice
  deriving DecidableEq, Repr, Inhabited

/-- Looks at the text of a document. -/
def analyze (uri text : String) : Analysis :=
  let lexed := lex text
  let parsed := Program.parse lexed.tokens
  let reports := lexed.errors.map LexicalError.report ++ parsed.errors.map SyntaxError.report
  { symbols := parsed.program.map fun program => program.flatMap (symbolsOf uri)
    notices := reports.map Notice.ofReport }

end LineScript.Editor
