/-
Module: LineScript.Editor.Workspace
Purpose: The open documents of an editor and the index of their symbols.
Trusted boundary: the documents are kept by the library that speaks the editor protocol. It is
  assumed to hold the text a document was opened with, and after a change the last of the texts
  handed over; a document it does not hold makes the question about it fail. The index and what is
  published are the program's own.
Main exports: Workspace, Publication, openDocument, changeDocument, lookup?, declarationAt?
-/
import LineScript.Editor.Symbol
import LineScript.Editor.Word

/-!
The workspace holds the current text of every document that was opened, and for every document the
symbols of the last indexed text of it that parsed: a document that fails to parse while it is being
edited keeps its symbols. Indexing a text publishes its notices. Of a change that replaces the text
several times, the first text is indexed and the last one becomes the document.
-/

namespace LineScript.Editor

/-- The documents of an editor. That the library which speaks the editor protocol keeps the texts in
this way is an assumption; the index is kept by the program. -/
structure Workspace where
  /-- The current text of each document. -/
  documents : List (String × String)
  /-- The symbols of each document. -/
  index : List (String × List Symbol)
  deriving DecidableEq, Repr, Inhabited

/-- Notices that were sent to the user for a document. -/
structure Publication where
  uri : String
  notices : List Notice
  deriving DecidableEq, Repr, Inhabited

/-- A list of entries with one entry set, in the place of the old one if there is one. -/
def setEntry (key : String) (value : α) : List (String × α) → List (String × α)
  | [] => [(key, value)]
  | entry :: rest =>
    if entry.1 = key then (key, value) :: rest else entry :: setEntry key value rest

namespace Workspace

/-- A workspace without documents. -/
def empty : Workspace := ⟨[], []⟩

/-- The current text of a document. -/
def document? (workspace : Workspace) (uri : String) : Option String :=
  workspace.documents.lookup uri

/-- The symbols of a document; one that was never indexed has none. -/
def symbols (workspace : Workspace) (uri : String) : List Symbol :=
  (workspace.index.lookup uri).getD []

/-- Sets the current text of a document. -/
def setDocument (workspace : Workspace) (uri text : String) : Workspace :=
  { workspace with documents := setEntry uri text workspace.documents }

/-- Indexes a text of a document and publishes its notices. -/
def reindex (workspace : Workspace) (uri text : String) : Publication × Workspace :=
  let analysis := analyze uri text
  let updated :=
    match analysis.symbols with
    | some symbols => { workspace with index := setEntry uri symbols workspace.index }
    | none => workspace
  (⟨uri, analysis.notices⟩, updated)

/-- Opens a document with a text. -/
def openDocument (workspace : Workspace) (uri text : String) : List Publication × Workspace :=
  let (publication, updated) := (workspace.setDocument uri text).reindex uri text
  ([publication], updated)

/-- Replaces the text of a document by each of some texts in turn. -/
def changeDocument (workspace : Workspace) (uri : String) (texts : List String) :
    List Publication × Workspace :=
  match texts with
  | [] => ([], workspace)
  | first :: rest =>
    let (publication, updated) :=
      (workspace.setDocument uri ((first :: rest).getLastD first)).reindex uri first
    ([publication], updated)

/-- The last declaration of a name in a document. -/
def lookup? (workspace : Workspace) (uri name : String) : Option Symbol :=
  ((workspace.symbols uri).filter fun symbol => symbol.name == name).getLast?

/-- The declaration of the word at a place of a document. A document that was never opened has no
places. -/
def declarationAt? (workspace : Workspace) (uri : String) (line column : Nat) :
    Option (Option Symbol) :=
  (workspace.document? uri).map fun text =>
    let word := wordAt text line column
    if word.isEmpty then none else workspace.lookup? uri word

end Workspace

end LineScript.Editor
