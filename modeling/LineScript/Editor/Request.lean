/-
Module: LineScript.Editor.Request
Purpose: What an editor asks of a workspace, and how the workspace reacts.
Trusted boundary: a request reaches the workspace as the editor sent it, one at a time and in order.
Main exports: Request, Answer, Reaction, Workspace.respond
-/
import LineScript.Editor.Workspace

/-!
An editor opens and changes documents, and asks where a variable is declared, how, and what else is
declared. Only opening and changing a document change the workspace or publish anything. A question
about a place fails if the document was never opened, and has no answer if there is no word at the
place or the word is not declared.
-/

namespace LineScript.Editor

/-- What an editor asks for. -/
inductive Request where
  | opening (uri text : String)
  /-- The text is replaced by each of some texts in turn. -/
  | change (uri : String) (texts : List String)
  | definition (uri : String) (line column : Nat)
  | hover (uri : String) (line column : Nat)
  | symbols (uri : String)
  | lookup (uri name : String)
  deriving DecidableEq, Repr, Inhabited

/-- What an editor is told. -/
inductive Answer where
  | done
  | unknownDocument
  | location (found : Option (String × Span))
  | detail (found : Option Markup)
  | symbols (found : List OutlineEntry)
  | symbol (found : Option Symbol)
  deriving DecidableEq, Repr, Inhabited

/-- The answer to a request, the notices sent with it, and the workspace behind it. -/
structure Reaction where
  answer : Answer
  published : List Publication
  workspace : Workspace
  deriving DecidableEq, Repr, Inhabited

namespace Workspace

/-- Answers a question about the symbol at a place. -/
def ask (workspace : Workspace) (uri : String) (line column : Nat)
    (answer : Option Symbol → Answer) : Reaction :=
  match workspace.declarationAt? uri line column with
  | none => ⟨.unknownDocument, [], workspace⟩
  | some found => ⟨answer found, [], workspace⟩

/-- The reaction to a request. -/
def respond (workspace : Workspace) : Request → Reaction
  | .opening uri text =>
    let (published, reached) := workspace.openDocument uri text
    ⟨.done, published, reached⟩
  | .change uri texts =>
    let (published, reached) := workspace.changeDocument uri texts
    ⟨.done, published, reached⟩
  | .definition uri line column =>
    workspace.ask uri line column fun found =>
      .location (found.map fun symbol => (symbol.uri, symbol.span))
  | .hover uri line column =>
    workspace.ask uri line column fun found => .detail (found.map Symbol.hover)
  | .symbols uri =>
    ⟨.symbols ((workspace.symbols uri).map Symbol.outlineEntry), [], workspace⟩
  | .lookup uri name => ⟨.symbol (workspace.lookup? uri name), [], workspace⟩

end Workspace

end LineScript.Editor
