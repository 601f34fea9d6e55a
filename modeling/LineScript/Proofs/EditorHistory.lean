/-
Module: LineScript.Proofs.EditorHistory
Purpose: What an editor has published and indexed after any requests, and what it answers.
Trusted boundary: the current text of a document and the word at a place of it are those of
  LineScript.Editor.Workspace and LineScript.Editor.Word.
Main exports: History, lastParsed?, PointsAt, index_keeps_last_parsed, Tracks,
  change_tracks_first_text
-/
import LineScript.Editor.Request
import LineScript.Proofs.NameOrder
import Mathlib.Data.List.Induction

/-!
An editor opens and changes documents and asks about them. What the index holds for a document does
not depend on the other documents or on the questions asked: it is the symbols of the last text that
was handed over for it and parsed. A question about a place is answered from two stores, the word
from the current text of the document and its declaration from the index, so an answer is the
declaration of that word in the last text that parsed.
-/

namespace LineScript.Editor

/-! ### Histories -/

/-- The text that a request hands over to be indexed, with its document. -/
def Request.update? : Request → Option (String × String)
  | .opening uri text => some (uri, text)
  | .change uri (first :: _) => some (uri, first)
  | _ => none

/-- The text that a request hands over for a given document. -/
def Request.handed? (request : Request) (uri : String) : Option String :=
  request.update?.bind fun update => if update.1 = uri then some update.2 else none

theorem Request.handed?_eq_some_iff {request : Request} {uri text : String} :
    request.handed? uri = some text ↔ request.update? = some (uri, text) := by
  unfold handed?
  cases request.update? with
  | none => simp
  | some update =>
    obtain ⟨other, given⟩ := update
    simp

/-- All notices sent so far, in order, and the workspace. -/
structure History where
  sent : List Publication
  workspace : Workspace
  deriving DecidableEq, Repr, Inhabited

/-- One request more. -/
def History.take (history : History) (request : Request) : History :=
  let reaction := history.workspace.respond request
  ⟨history.sent ++ reaction.published, reaction.workspace⟩

/-- The history of some requests, from an empty workspace on. -/
def History.of (requests : List Request) : History :=
  requests.foldl History.take ⟨[], .empty⟩

/-- The notices sent last for a document. -/
def History.notices? (history : History) (uri : String) : Option (List Notice) :=
  (history.sent.reverse.find? fun publication => publication.uri == uri).map Publication.notices

theorem History.of_snoc (requests : List Request) (request : Request) :
    History.of (requests ++ [request]) = (History.of requests).take request := by
  rw [of, of, List.foldl_append]
  rfl

/-! ### One request -/

theorem lookup_setEntry_ne {α : Type} {key other : String} (different : other ≠ key) (value : α)
    (entries : List (String × α)) :
    (setEntry key value entries).lookup other = entries.lookup other := by
  induction entries with
  | nil => simp [setEntry, different]
  | cons entry rest inductionHypothesis =>
    obtain ⟨name, held⟩ := entry
    rw [setEntry]
    by_cases here : name = key
    · have elsewhere : (other == key) = false := by simpa using different
      simp [here, List.lookup_cons, elsewhere]
    · rw [if_neg here, List.lookup_cons, List.lookup_cons, inductionHypothesis]

namespace Workspace

variable (workspace : Workspace)

/-- A text that parses replaces the symbols of its document, and nothing else does. -/
theorem lookup_reindex (uri text other : String) :
    (workspace.reindex uri text).2.index.lookup other =
      if uri = other then (analyze uri text).symbols.or (workspace.index.lookup other)
      else workspace.index.lookup other := by
  cases analyzed : (analyze uri text).symbols with
  | none => simp [reindex, analyzed]
  | some symbols =>
    by_cases same : uri = other
    · subst same
      simp [reindex, analyzed, lookup_setEntry]
    · simp [reindex, analyzed, same, lookup_setEntry_ne (Ne.symm same)]

@[simp] theorem documents_reindex (uri text : String) :
    (workspace.reindex uri text).2.documents = workspace.documents := by
  unfold reindex
  dsimp only
  split <;> rfl

/-- What is published is what the text handed over has to say, under the name of its document. -/
theorem published_respond (request : Request) :
    (workspace.respond request).published = request.update?.toList.map fun update =>
      ⟨update.1, (analyze update.1 update.2).notices⟩ := by
  cases request with
  | opening uri text => rfl
  | change uri texts =>
    cases texts with
    | nil => rfl
    | cons first rest => rfl
  | definition uri line column | hover uri line column =>
    simp only [respond, ask]
    split <;> rfl
  | symbols uri => rfl
  | lookup uri name => rfl

/-- The text that a request hands over for a document takes the place of what was indexed, if it
parses. -/
theorem lookup_respond (request : Request) (uri : String) :
    (workspace.respond request).workspace.index.lookup uri =
      ((request.handed? uri).bind fun text => (analyze uri text).symbols).or
        (workspace.index.lookup uri) := by
  have updated : ∀ (other text : String) (base : Workspace),
      base.index = workspace.index → request.update? = some (other, text) →
      (base.reindex other text).2.index.lookup uri =
        ((request.handed? uri).bind fun text => (analyze uri text).symbols).or
          (workspace.index.lookup uri) := by
    intro other text base same update
    rw [lookup_reindex, same, Request.handed?, update]
    by_cases here : other = uri
    · simp [here]
    · simp [here]
  cases request with
  | opening other text => exact updated other text _ rfl rfl
  | change other texts =>
    cases texts with
    | nil => rfl
    | cons first rest => exact updated other first _ rfl rfl
  | definition other line column | hover other line column =>
    simp only [respond, ask]
    split <;> rfl
  | symbols other => rfl
  | lookup other name => rfl

end Workspace

/-! ### The index after any requests -/

/-- The last text that was handed over for a document and parsed. -/
def lastParsed? (requests : List Request) (uri : String) : Option String :=
  (requests.filterMap fun request => request.handed? uri).reverse.find? fun text =>
    (analyze uri text).symbols.isSome

theorem lastParsed?_snoc (requests : List Request) (request : Request) (uri : String) :
    lastParsed? (requests ++ [request]) uri =
      ((request.handed? uri).filter fun text => (analyze uri text).symbols.isSome).or
        (lastParsed? requests uri) := by
  unfold lastParsed?
  cases handed : request.handed? uri with
  | none => simp [handed]
  | some text =>
    by_cases parses : (analyze uri text).symbols.isSome
    · simp [handed, parses, Option.filter_some]
    · simp [handed, parses, Option.filter_some]

/-- The index holds the symbols of the last text that parsed. -/
theorem lookup_index (requests : List Request) (uri : String) :
    (History.of requests).workspace.index.lookup uri =
      (lastParsed? requests uri).bind fun text => (analyze uri text).symbols := by
  induction requests using List.reverseRecOn with
  | nil => rfl
  | append_singleton requests request inductionHypothesis =>
    rw [History.of_snoc, lastParsed?_snoc]
    have step := (History.of requests).workspace.lookup_respond request uri
    rw [inductionHypothesis] at step
    refine step.trans ?_
    cases handed : request.handed? uri with
    | none => rfl
    | some text =>
      cases parses : (analyze uri text).symbols with
      | none => simp [parses, Option.filter_some]
      | some symbols => simp [parses, Option.filter_some]

/-- A request that hands over no text of the document that parses leaves its symbols alone. -/
theorem lookup_index_snoc (requests : List Request) (request : Request) (uri : String)
    (idle : ∀ text, request.update? = some (uri, text) → (analyze uri text).symbols = none) :
    (History.of (requests ++ [request])).workspace.index.lookup uri =
      (History.of requests).workspace.index.lookup uri := by
  rw [History.of_snoc]
  refine ((History.of requests).workspace.lookup_respond request uri).trans ?_
  have nothing : ((request.handed? uri).bind fun text => (analyze uri text).symbols) = none := by
    rw [Option.bind_eq_none_iff]
    intro text handed
    exact idle text (Request.handed?_eq_some_iff.mp handed)
  rw [nothing, Option.none_or]

/-! ### Answers -/

/-- The word at a place of the current document names a declaration of the last text that parsed,
the last one of that name in the text. -/
def PointsAt (requests : List Request) (uri : String) (line column : Nat)
    (declaration : VarType × Declarator) : Prop :=
  ∃ document text program, (History.of requests).workspace.document? uri = some document ∧
    wordAt document line column ≠ "" ∧ lastParsed? requests uri = some text ∧
    (Program.parse (lex text).tokens).program = some program ∧
    LastInText (Program.declared program) (wordAt document line column) declaration

/-- A name is looked up in the last text that parsed. -/
theorem lookup?_eq_some_iff (requests : List Request) (uri name : String) (symbol : Symbol) :
    (History.of requests).workspace.lookup? uri name = some symbol ↔
      ∃ text program declaration, lastParsed? requests uri = some text ∧
        (Program.parse (lex text).tokens).program = some program ∧
        LastInText (Program.declared program) name declaration ∧
        symbol = Symbol.ofDeclarator uri declaration.1 declaration.2 := by
  rw [Workspace.lookup?, Workspace.symbols, lookup_index]
  cases parsed : lastParsed? requests uri with
  | none => simp
  | some text =>
    have parses : (analyze uri text).symbols.isSome := by
      have fits := List.find?_some parsed
      exact fits
    cases found : (Program.parse (lex text).tokens).program with
    | none => simp [analyze, found] at parses
    | some program =>
      have symbols : (analyze uri text).symbols =
          some ((Program.declared program).map fun declaration =>
            Symbol.ofDeclarator uri declaration.1 declaration.2) := by
        simp [analyze, found, flatMap_symbolsOf]
      rw [Option.bind_some, symbols, Option.getD_some, getLast?_symbols, Option.map_eq_some_iff]
      constructor
      · rintro ⟨declaration, last, rfl⟩
        have lastInText := (lastDeclaration?_eq_some_iff (Program.declared_sorted found)).mp last
        exact ⟨text, program, declaration, rfl, found, lastInText, rfl⟩
      · rintro ⟨_, _, declaration, same, foundToo, last, rfl⟩
        cases same
        cases found.symm.trans foundToo
        exact ⟨declaration, (lastDeclaration?_eq_some_iff (Program.declared_sorted found)).mpr last,
          rfl⟩

theorem declarationAt?_eq_some_iff (requests : List Request) (uri : String) (line column : Nat)
    (symbol : Symbol) :
    (History.of requests).workspace.declarationAt? uri line column = some (some symbol) ↔
      ∃ declaration, PointsAt requests uri line column declaration ∧
        symbol = Symbol.ofDeclarator uri declaration.1 declaration.2 := by
  rw [Workspace.declarationAt?, Option.map_eq_some_iff]
  constructor
  · rintro ⟨document, opened, found⟩
    by_cases blank : wordAt document line column = ""
    · simp [blank] at found
    · simp only [String.isEmpty_iff, blank, if_false] at found
      obtain ⟨text, program, declaration, handed, parsed, last, rfl⟩ :=
        (lookup?_eq_some_iff requests uri _ symbol).mp found
      exact ⟨declaration, ⟨document, text, program, opened, blank, handed, parsed, last⟩, rfl⟩
  · rintro ⟨declaration, ⟨document, text, program, opened, word, handed, parsed, last⟩, same⟩
    refine ⟨document, opened, ?_⟩
    simp only [String.isEmpty_iff, word, if_false]
    exact (lookup?_eq_some_iff requests uri _ symbol).mpr
      ⟨text, program, declaration, handed, parsed, last, same⟩

theorem definition_answer_iff (workspace : Workspace) (uri : String) (line column : Nat)
    (location : String × Span) :
    (workspace.respond (.definition uri line column)).answer = .location (some location) ↔
      ∃ symbol, workspace.declarationAt? uri line column = some (some symbol) ∧
        location = (symbol.uri, symbol.span) := by
  rw [Workspace.respond, Workspace.ask]
  cases workspace.declarationAt? uri line column with
  | none => simp
  | some found => cases found <;> simp [eq_comm]

theorem hover_answer_iff (workspace : Workspace) (uri : String) (line column : Nat)
    (detail : Markup) :
    (workspace.respond (.hover uri line column)).answer = .detail (some detail) ↔
      ∃ symbol, workspace.declarationAt? uri line column = some (some symbol) ∧
        detail = symbol.hover := by
  rw [Workspace.respond, Workspace.ask]
  cases workspace.declarationAt? uri line column with
  | none => simp
  | some found => cases found <;> simp [eq_comm]

/-- Whatever is shown of the symbol at a place is shown of the declaration that the word names. -/
theorem shown_iff {β : Type} (shows : Symbol → β) (requests : List Request) (uri : String)
    (line column : Nat) (shown : β) :
    (∃ symbol, (History.of requests).workspace.declarationAt? uri line column =
        some (some symbol) ∧ shown = shows symbol) ↔
      ∃ declaration, PointsAt requests uri line column declaration ∧
        shown = shows (Symbol.ofDeclarator uri declaration.1 declaration.2) := by
  constructor
  · rintro ⟨symbol, found, rfl⟩
    obtain ⟨declaration, points, rfl⟩ :=
      (declarationAt?_eq_some_iff requests uri line column symbol).mp found
    exact ⟨declaration, points, rfl⟩
  · rintro ⟨declaration, points, rfl⟩
    have found := (declarationAt?_eq_some_iff requests uri line column _).mpr
      ⟨declaration, points, rfl⟩
    exact ⟨_, found, rfl⟩

/-- The outline of a document lists the symbols of the last text that parsed, each as it is sent. -/
theorem outline_answer (requests : List Request) (uri : String) :
    ((History.of requests).workspace.respond (.symbols uri)).answer =
      .symbols ((((lastParsed? requests uri).bind fun text => (analyze uri text).symbols).getD
        []).map Symbol.outlineEntry) := by
  rw [Workspace.respond, Workspace.symbols, lookup_index]

/-- After any requests, the index holds for a document the symbols of the last text that was handed
over for it and parsed, or nothing if there was none, and every other request leaves it alone. Each
text handed over has its notices published once, under the name of its document, and nothing else is
published. A definition or a detail is shown exactly if the word at the place is declared in the
last text that parsed, and it is that of the last declaration of the word in that text, the detail
as plain text. -/
theorem index_keeps_last_parsed (requests : List Request) (uri : String) :
    (History.of requests).workspace.index.lookup uri =
      ((lastParsed? requests uri).bind fun text => (analyze uri text).symbols) ∧
    (∀ request : Request,
      (∀ text, request.update? = some (uri, text) → (analyze uri text).symbols = none) →
      (History.of (requests ++ [request])).workspace.index.lookup uri =
        (History.of requests).workspace.index.lookup uri) ∧
    (∀ request : Request, ((History.of requests).workspace.respond request).published =
      request.update?.toList.map fun update =>
        ⟨update.1, (analyze update.1 update.2).notices⟩) ∧
    ∀ line column,
      (∀ location, ((History.of requests).workspace.respond
          (.definition uri line column)).answer = .location (some location) ↔
        ∃ declaration, PointsAt requests uri line column declaration ∧
          location = (uri, (Symbol.ofDeclarator uri declaration.1 declaration.2).span)) ∧
      ∀ detail, ((History.of requests).workspace.respond
          (.hover uri line column)).answer = .detail (some detail) ↔
        ∃ declaration, PointsAt requests uri line column declaration ∧
          detail = ⟨.plainText, (Symbol.ofDeclarator uri declaration.1 declaration.2).detail⟩ := by
  refine ⟨lookup_index requests uri,
    fun request idle => lookup_index_snoc requests request uri idle,
    fun request => Workspace.published_respond _ request, fun line column => ⟨?_, ?_⟩⟩
  · intro location
    rw [definition_answer_iff]
    exact shown_iff (fun symbol => (symbol.uri, symbol.span)) requests uri line column location
  · intro detail
    rw [hover_answer_iff]
    exact shown_iff Symbol.hover requests uri line column detail

/-- A document that declares a name twice, another one, an empty change, and a change after which
the first document is broken. -/
def brokenEdit : List Request :=
  [.opening "a.script" "SCRIPT AREA\nSTART SCRIPT\nDECLARE INT x\nDECLARE FLOAT x\nEND SCRIPT\n",
    .opening "b.script" "SCRIPT AREA\nSTART SCRIPT\nDECLARE BOOL x\nEND SCRIPT\n",
    .change "a.script" [], .change "a.script" ["PRINT: x"]]

theorem brokenEdit_keeps_last_parsed :
    (analyze "a.script" "PRINT: x").symbols = none ∧
      (History.of brokenEdit).workspace.index.lookup "a.script" =
        (History.of (brokenEdit.take 3)).workspace.index.lookup "a.script" ∧
      ((History.of brokenEdit).workspace.respond (.hover "a.script" 0 8)).answer =
        .detail (some ⟨.plainText, "DECLARE FLOAT x"⟩) ∧
      ∃ declaration, PointsAt brokenEdit "a.script" 0 8 declaration ∧
        (⟨.plainText, "DECLARE FLOAT x"⟩ : Markup) =
          ⟨.plainText, (Symbol.ofDeclarator "a.script" declaration.1 declaration.2).detail⟩ := by
  have broken : (analyze "a.script" "PRINT: x").symbols = none := by decide +kernel
  have shown : ((History.of brokenEdit).workspace.respond (.hover "a.script" 0 8)).answer =
      .detail (some ⟨.plainText, "DECLARE FLOAT x"⟩) := by decide +kernel
  refine ⟨broken, ?_, shown, ?_⟩
  · apply (index_keeps_last_parsed (brokenEdit.take 3) "a.script").2.1
      (.change "a.script" ["PRINT: x"])
    intro text update
    cases update
    exact broken
  · exact (((index_keeps_last_parsed brokenEdit "a.script").2.2.2 0 8).2 _).mp shown

/-! ### The current text -/

/-- What was published last for a document and what its index holds are those of its current
text. -/
def Tracks (requests : List Request) (uri : String) : Prop :=
  ∀ text, (History.of requests).workspace.document? uri = some text →
    (History.of requests).notices? uri = some (analyze uri text).notices ∧
      ∀ symbols, (analyze uri text).symbols = some symbols →
        (History.of requests).workspace.index.lookup uri = some symbols

/-- The notices of a text handed over are those published last for its document. -/
theorem notices?_snoc (requests : List Request) {request : Request} {uri text : String}
    (update : request.update? = some (uri, text)) :
    (History.of (requests ++ [request])).notices? uri = some (analyze uri text).notices := by
  rw [History.of_snoc, History.take, History.notices?, Workspace.published_respond, update]
  simp

/-- A text handed over that parses is indexed. -/
theorem lookup_index_of_update (requests : List Request) {request : Request} {uri text : String}
    (update : request.update? = some (uri, text)) :
    (History.of (requests ++ [request])).workspace.index.lookup uri =
      (analyze uri text).symbols.or ((History.of requests).workspace.index.lookup uri) := by
  rw [History.of_snoc]
  refine ((History.of requests).workspace.lookup_respond request uri).trans ?_
  rw [Request.handed?_eq_some_iff.mpr update, Option.bind_some]

theorem document?_opening (requests : List Request) (uri text : String) :
    (History.of (requests ++ [Request.opening uri text])).workspace.document? uri = some text := by
  rw [History.of_snoc]
  simp [History.take, Workspace.respond, Workspace.openDocument, Workspace.document?,
    Workspace.setDocument, lookup_setEntry]

theorem document?_change (requests : List Request) (uri first : String) (rest : List String) :
    (History.of (requests ++ [Request.change uri (first :: rest)])).workspace.document? uri =
      some (rest.getLastD first) := by
  rw [History.of_snoc]
  simp [History.take, Workspace.respond, Workspace.changeDocument, Workspace.document?,
    Workspace.setDocument, lookup_setEntry, List.getLast?_cons]

/-- A document is tracked if the text handed over is the one that it has then. -/
theorem tracks_of_update {requests : List Request} {request : Request} {uri text : String}
    (update : request.update? = some (uri, text))
    (current : (History.of (requests ++ [request])).workspace.document? uri = some text) :
    Tracks (requests ++ [request]) uri := by
  intro other now
  cases current.symm.trans now
  refine ⟨notices?_snoc requests update, fun symbols parses => ?_⟩
  rw [lookup_index_of_update requests update, parses, Option.some_or]

/-- A document is tracked when it has been opened or has been given a single text. When it has been
given several, its current text is the last of them, but its notices and its symbols are those of
the first one, or its old symbols if that does not parse. -/
theorem change_tracks_first_text (requests : List Request) (uri first : String)
    (rest : List String) :
    Tracks (requests ++ [Request.opening uri first]) uri ∧
      Tracks (requests ++ [Request.change uri [first]]) uri ∧
      (History.of (requests ++ [Request.change uri (first :: rest)])).workspace.document? uri =
        some (rest.getLastD first) ∧
      (History.of (requests ++ [Request.change uri (first :: rest)])).notices? uri =
        some (analyze uri first).notices ∧
      (History.of (requests ++ [Request.change uri (first :: rest)])).workspace.index.lookup uri =
        (analyze uri first).symbols.or ((History.of requests).workspace.index.lookup uri) :=
  ⟨tracks_of_update rfl (document?_opening requests uri first),
    tracks_of_update rfl (document?_change requests uri first []),
    document?_change requests uri first rest, notices?_snoc requests rfl,
    lookup_index_of_update requests rfl⟩

/-- Two texts at once, of which the first does not parse and the last declares another variable than
the text before them. -/
def doubleChange : List Request :=
  [.opening "a.script" "SCRIPT AREA\nSTART SCRIPT\nDECLARE INT x\nEND SCRIPT\n",
    .change "a.script" ["", "SCRIPT AREA\nSTART SCRIPT\nDECLARE BOOL y\nEND SCRIPT\n"]]

theorem doubleChange_not_tracked : ¬ Tracks doubleChange "a.script" := by
  intro tracks
  have current : (History.of doubleChange).workspace.document? "a.script" =
      some "SCRIPT AREA\nSTART SCRIPT\nDECLARE BOOL y\nEND SCRIPT\n" := by decide +kernel
  obtain ⟨published, _⟩ := tracks _ current
  revert published
  decide +kernel

end LineScript.Editor
