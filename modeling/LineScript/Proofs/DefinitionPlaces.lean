/-
Module: LineScript.Proofs.DefinitionPlaces
Purpose: Asked at the place of a declared name, an editor answers with this declaration.
Trusted boundary: what an editor asks about is the word that LineScript.Editor.Word finds.
Main exports: Program.declared_word, Symbol.FoundAt, definition_at_declared_name
-/
import LineScript.Proofs.AnalysisRanges
import LineScript.Proofs.EditorHistory
import LineScript.Proofs.EditorWords
import LineScript.Proofs.TokenShapes

/-!
In a text without errors a declared name is a word by itself: no letter follows it, because a word
is cut as long as it can be, and none is in front of it, because the token there is a comma or the
name of a type, with nothing but blanks in between. So an editor that is asked at its own place of
the name finds the whole name and nothing but the name, and with it its last declaration. The start
of a symbol's stretch is that place only where the editor counts lines and columns as the lexer
does.
-/

namespace LineScript

/-! ### Places tell fronts -/

/-- Fronts of one text with the same place behind them are the same. -/
theorem Position.front_eq_of_behind {front other back rest : List Char}
    (same : front ++ back = other ++ rest) (place : behind front = behind other) :
    front = other := by
  have distinct : ∀ {shorter more : List Char}, behind shorter = behind (shorter ++ more) →
      more = [] := by
    intro shorter more equal
    by_contra nonempty
    have before := behind_before_append shorter nonempty
    rw [← equal] at before
    exact before.asymm before
  rcases List.append_eq_append_iff.mp same with ⟨more, rfl, _⟩ | ⟨more, rfl, _⟩
  · rw [distinct place, List.append_nil]
  · rw [distinct place.symm, List.append_nil]

/-! ### Words that end -/

/-- In the rest of a text, the token stands with its lexeme, and no letter of a word follows. -/
def Token.EndsWord (before rest : List Char) (token : Token) : Prop :=
  ∃ gap back, rest = gap ++ (token.lexeme.toList ++ back) ∧
    token.position = .behind (before ++ gap) ∧
    ∀ char ∈ back.head?, Piece.continuesWord char = false

theorem Token.EndsWord.widen {before text rest : List Char} {token : Token}
    (ends : token.EndsWord (before ++ text) rest) : token.EndsWord before (text ++ rest) := by
  obtain ⟨gap, back, rfl, place, stopped⟩ := ends
  exact ⟨text ++ gap, back, by simp, by simp [place], stopped⟩

/-- Every word among the tokens of a text ends where its token ends. -/
theorem endsWord_of_mem_placed (before source : List Char) :
    ∀ token ∈ placed Piece.token? (.behind before) (pieces source),
      token.kind ∈ .identifier :: TokenKind.keywords → token.EndsWord before source := by
  fun_induction pieces source generalizing before with
  | case1 => exact List.forall_mem_nil _
  | case2 char rest found inductionHypothesis =>
    rw [placed_cons, Position.after_behind]
    intro token member word
    have whole := Piece.cut_append char rest
    rcases List.mem_append.mp member with first | later
    · obtain ⟨kind, value, role, rfl⟩ :=
        Piece.exists_role_of_token? (Option.mem_toList.mp first)
      exact ⟨[], _, by simpa using whole.symm, by simp, (Piece.cut_word role word).2⟩
    · rw [← whole]
      exact (inductionHypothesis (before ++ found.1.text) token later word).widen

theorem mem_placed_of_kind_ne_eof {source : String} {token : Token}
    (member : token ∈ (lex source).tokens) (inside : token.kind ≠ .eof) :
    token ∈ placed Piece.token? .start (pieces source.toList) := by
  rw [lex_eq] at member
  rcases List.mem_append.mp member with placed | last
  · exact placed
  · rw [List.mem_singleton.mp last] at inside
    exact absurd rfl inside

theorem lex_endsWord {source : String} {token : Token} (member : token ∈ (lex source).tokens)
    (word : token.kind ∈ .identifier :: TokenKind.keywords) :
    token.EndsWord [] source.toList := by
  have inside : token.kind ≠ .eof := ne_of_mem_of_not_mem word (by decide)
  exact endsWord_of_mem_placed [] source.toList token (mem_placed_of_kind_ne_eof member inside) word

/-! ### Neighbours -/

/-- Only blanks are in the gap, unless the token behind it is a newline or ends the text. -/
def Token.Nears (gap : List Char) (token : Token) : Prop :=
  (∀ char ∈ gap, char ∈ [' ', '\t', '\r']) ∨ ∀ char ∈ token.lexeme.toList.head?, char = '\n'

/-- In the rest of a text, the token stands behind the leading one, near to it. -/
def Token.Follows (before rest : List Char) (token lead : Token) : Prop :=
  ∃ front gap back,
    rest = front ++ (lead.lexeme.toList ++ (gap ++ (token.lexeme.toList ++ back))) ∧
    lead.position = .behind (before ++ front) ∧
    token.position = .behind (before ++ (front ++ (lead.lexeme.toList ++ gap))) ∧
    token.Nears gap

theorem Token.Follows.widen {before text rest : List Char} {lead token : Token}
    (follows : token.Follows (before ++ text) rest lead) :
    token.Follows before (text ++ rest) lead := by
  obtain ⟨front, gap, back, rfl, place, other, near⟩ := follows
  exact ⟨text ++ front, gap, back, by simp, by simp [place], by simp [other], near⟩

/-- Only blanks stand in front of the first of some tokens, if nothing is rejected there and the
token does not end its line or the text. -/
theorem Tiles.gap_of_first {before rest : List Char} {tokens : List Token}
    {errors : List LexicalError} (tiles : Tiles before rest tokens errors) (quiet : errors = [])
    {token : Token} {others : List Token} (first : tokens = token :: others) :
    ∃ gap back, rest = gap ++ (token.lexeme.toList ++ back) ∧
      token.position = .behind (before ++ gap) ∧ token.Nears gap := by
  induction tiles with
  | done before =>
    cases first
    exact ⟨[], [], rfl, by simp [Token.endAt], .inl (List.forall_mem_nil _)⟩
  | @newline before rest _ _ _ _ =>
    cases first
    exact ⟨[], rest, by simp, by simp, .inl (List.forall_mem_nil _)⟩
  | @token before text rest _ _ kind literal _ _ _ _ _ _ =>
    cases first
    exact ⟨[], rest, by simp, by simp, .inl (List.forall_mem_nil _)⟩
  | @blanks before text _ _ _ _ blank _ _ inductionHypothesis =>
    obtain ⟨gap, back, rfl, place, near⟩ := inductionHypothesis quiet first
    refine ⟨text ++ gap, back, by simp, by simp [place], near.imp_left fun more => ?_⟩
    exact List.forall_mem_append.mpr ⟨blank, more⟩
  | @comment before text _ _ _ _ _ lineEnd _ inductionHypothesis =>
    obtain ⟨gap, back, rfl, place, near⟩ := inductionHypothesis quiet first
    refine ⟨text ++ gap, back, by simp, by simp [place], .inr ?_⟩
    -- A comment ends at a newline or with the text, and a newline is no blank.
    rcases near with blank | newline
    · cases gap with
      | nil =>
        intro char head
        apply lineEnd
        rw [List.nil_append, List.head?_append, Option.mem_def.mp head]
        rfl
      | cons next more =>
        have ends : next = '\n' := lineEnd next rfl
        have impossible := blank next List.mem_cons_self
        rw [ends] at impossible
        exact absurd impossible (by decide)
    · exact newline
  | rejected _ _ _ _ _ _ => cases quiet

/-- Tokens next to each other are near, if nothing is rejected. -/
theorem Tiles.follows_of_neighbours {before rest : List Char} {tokens : List Token}
    {errors : List LexicalError} (tiles : Tiles before rest tokens errors) (quiet : errors = [])
    {lead token : Token} (neighbours : [lead, token] <:+: tokens) :
    token.Follows before rest lead := by
  induction tiles with
  | done before => simp [List.infix_cons_iff] at neighbours
  | @newline before rest _ _ others inductionHypothesis
  | @token before text rest _ _ kind literal _ _ _ _ others inductionHypothesis =>
    rcases List.infix_cons_iff.mp neighbours with leading | later
    · obtain ⟨rfl, more⟩ := List.cons_prefix_cons.mp leading
      obtain ⟨following, same⟩ := more
      obtain ⟨gap, back, rfl, place, near⟩ := others.gap_of_first quiet same.symm
      exact ⟨[], gap, back, by simp, by simp, by simp [place], near⟩
    · exact (inductionHypothesis quiet later).widen
  | blanks _ _ _ _ inductionHypothesis | comment _ _ _ _ inductionHypothesis =>
    exact (inductionHypothesis quiet neighbours).widen
  | rejected _ _ _ _ _ _ => cases quiet

/-! ### Declared names are words by themselves -/

/-- The last character of a token that leads a name in belongs to no word, unless it is a word
itself. -/
theorem Token.lead_cases {source : String} {lead : Token} (member : lead ∈ (lex source).tokens)
    (leads : lead.kind.LeadsName) :
    lead.lexeme.toList = [','] ∨ lead.kind ∈ .identifier :: TokenKind.keywords := by
  rcases leads with comma | ⟨type, typeName⟩
  · have inside : lead.kind ≠ .eof := by simp [comma]
    obtain ⟨_, char, rest, kind, value, role, rfl⟩ :=
      exists_cut_of_token (mem_placed_of_kind_ne_eof member inside)
    obtain rfl : kind = .comma := comma
    rcases Piece.cut_cases role with wordless | word | spelled
    · exact absurd wordless (by decide)
    · rw [word.1] at role
      exact absurd (Piece.cutWord_kind role).1.symm (TokenKind.ofWord_ne (by decide))
    · have alone : ∀ spelling ∈ TokenKind.spellings, spelling.1 = .comma → spelling.2 = [','] := by
        decide
      exact .inl (by simpa using alone _ spelled rfl)
  · right
    rw [typeName]
    cases type <;> decide

/-- The lexeme of a word is made of letters, and there is one. -/
theorem Token.letters_of_word {source : String} {token : Token}
    (member : token ∈ (lex source).tokens)
    (word : token.kind ∈ .identifier :: TokenKind.keywords) :
    token.lexeme.toList ≠ [] ∧ ∀ char ∈ token.lexeme.toList, Piece.continuesWord char := by
  have inside : token.kind ≠ .eof := ne_of_mem_of_not_mem word (by decide)
  obtain ⟨_, char, rest, kind, value, role, rfl⟩ :=
    exists_cut_of_token (mem_placed_of_kind_ne_eof member inside)
  rw [String.toList_ofList]
  exact ⟨Piece.cut_text_ne_nil char rest, (Piece.cut_word role word).1⟩

/-- In front of a word that follows a leading token stands no letter. -/
theorem Token.Follows.no_letter_before {source : String} {lead token : Token}
    (follows : token.Follows [] source.toList lead) (leadMember : lead ∈ (lex source).tokens)
    (leads : lead.kind.LeadsName) (nonempty : token.lexeme.toList ≠ [])
    (letters : ∀ char ∈ token.lexeme.toList, Piece.continuesWord char) :
    ∃ front back, source.toList = front ++ (token.lexeme.toList ++ back) ∧
      token.position = .behind front ∧
      ∀ char ∈ front.getLast?, Piece.continuesWord char = false := by
  obtain ⟨front, gap, back, whole, leadPlace, place, near⟩ := follows
  refine ⟨front ++ (lead.lexeme.toList ++ gap), back, by simp [whole], by simpa using place, ?_⟩
  obtain ⟨first, others, lexeme⟩ := List.exists_cons_of_ne_nil nonempty
  rw [lexeme] at whole letters
  have letter : Piece.continuesWord first := letters first List.mem_cons_self
  -- A gap ends with a blank; without one, the lead's last character stands before the name.
  intro char last
  rcases List.eq_nil_or_concat gap with rfl | ⟨blanks, blank, rfl⟩
  · rcases lead.lead_cases leadMember leads with comma | word
    · rw [comma, List.append_nil, List.getLast?_concat] at last
      cases last
      decide
    · -- A word would have gone on with the first letter of the one behind it.
      obtain ⟨otherFront, otherBack, otherWhole, otherPlace, stopped⟩ :=
        lex_endsWord leadMember word
      have sameFront := Position.front_eq_of_behind (whole.symm.trans otherWhole)
        (leadPlace.symm.trans otherPlace)
      rw [whole, sameFront] at otherWhole
      have behind := List.append_cancel_left (List.append_cancel_left otherWhole)
      rw [← behind] at stopped
      rw [stopped first rfl] at letter
      cases letter
  · rw [List.concat_eq_append, ← List.append_assoc, ← List.append_assoc,
      List.getLast?_concat] at last
    cases last
    rcases near with blank | newline
    · have member := blank char (by simp)
      simp only [List.mem_cons, List.not_mem_nil, or_false] at member
      rcases member with rfl | rfl | rfl <;> decide
    · rw [lexeme] at newline
      rw [newline first rfl] at letter
      exact absurd letter (by decide)

/-- Each declared name of a text without errors is a whole word, with no letter next to it. -/
theorem Program.declared_word {source : String} {program : List Stmt}
    (parsed : (parse (lex source).tokens).program = some program)
    (quiet : (lex source).errors = []) {declaration : VarType × Declarator}
    (listed : declaration ∈ declared program) :
    ∃ front back, source.toList = front ++ (declaration.2.name.lexeme.toList ++ back) ∧
      declaration.2.name.position = .behind front ∧ declaration.2.name.lexeme.toList ≠ [] ∧
      (∀ char ∈ front.getLast?, Piece.continuesWord char = false) ∧
      (∀ char ∈ declaration.2.name.lexeme.toList, Piece.continuesWord char) ∧
      ∀ char ∈ back.head?, Piece.continuesWord char = false := by
  obtain ⟨member, identifier⟩ := (declared_madeOf (parse_madeOf parsed) declaration listed).1
  have word : declaration.2.name.kind ∈ .identifier :: TokenKind.keywords :=
    identifier ▸ List.mem_cons_self
  obtain ⟨nonempty, letters⟩ := Token.letters_of_word member word
  obtain ⟨lead, leads, neighbours⟩ :=
    (declaredNames_led (lex_tokens_ne_nil source) (lex_closed source) parsed).exists_lead _
      (List.mem_map_of_mem listed)
  have leadMember : lead ∈ (lex source).tokens :=
    neighbours.subset List.mem_cons_self
  obtain ⟨front, back, whole, place, before⟩ :=
    ((lex_tiling source).follows_of_neighbours quiet neighbours).no_letter_before leadMember leads
      nonempty letters
  obtain ⟨otherFront, otherBack, otherWhole, otherPlace, stopped⟩ := lex_endsWord member word
  have sameFront := Position.front_eq_of_behind (whole.symm.trans otherWhole)
    (place.symm.trans otherPlace)
  have sameWhole := whole.symm.trans otherWhole
  rw [sameFront] at sameWhole
  rw [← List.append_cancel_left (List.append_cancel_left sameWhole)] at stopped
  exact ⟨front, back, whole, place, nonempty, before, letters, stopped⟩

namespace Editor

/-! ### Answers at the place of a declared name -/

/-- Asked at the place, the editor says that the symbol is declared where it is, and how. -/
def Symbol.FoundAt (workspace : Workspace) (uri : String) (place : Nat × Nat) (symbol : Symbol) :
    Prop :=
  (workspace.respond (.definition uri place.1 place.2)).answer =
      .location (some (uri, symbol.span)) ∧
    (workspace.respond (.hover uri place.1 place.2)).answer =
      .detail (some ⟨.plainText, symbol.detail⟩)

theorem Symbol.foundAt_of_declarationAt? {workspace : Workspace} {uri : String}
    {place : Nat × Nat} {symbol : Symbol} (home : symbol.uri = uri)
    (found : workspace.declarationAt? uri place.1 place.2 = some (some symbol)) :
    symbol.FoundAt workspace uri place := by
  constructor
  · exact (definition_answer_iff _ _ _ _ _).mpr ⟨symbol, found, by rw [home]⟩
  · exact (hover_answer_iff _ _ _ _ _).mpr ⟨symbol, found, rfl⟩

theorem Workspace.document?_openDocument (workspace : Workspace) (uri text : String) :
    (workspace.openDocument uri text).2.document? uri = some text := by
  simp [openDocument, document?, setDocument, lookup_setEntry]

/-- Where the word is a name, what is found is its last symbol. -/
theorem Workspace.declarationAt?_openDocument {workspace : Workspace} {uri text : String}
    {symbols : List Symbol} (analyzed : (analyze uri text).symbols = some symbols)
    {line column : Nat} (word : wordAt text line column ≠ "") :
    (workspace.openDocument uri text).2.declarationAt? uri line column =
      some (symbols.filter fun symbol => symbol.name == wordAt text line column).getLast? := by
  rw [declarationAt?, document?_openDocument, Option.map_some]
  simp [word, lookup?_openDocument analyzed]

/-- Without notices there are symbols. -/
theorem quiet_of_notices {uri text : String} (quiet : (analyze uri text).notices = []) :
    (lex text).errors = [] ∧
      ∃ program, (Program.parse (lex text).tokens).program = some program := by
  rw [notices_eq, List.map_eq_nil_iff, staticReports_eq_nil_iff] at quiet
  have parsed := (Program.parse_isSome_iff_quiet (lex text).tokens).mpr quiet.2
  exact ⟨quiet.1, Option.isSome_iff_exists.mp parsed⟩

/-- A document without notices has symbols, and each that is the last of its name is found at the
editor's own place of the name: at the place that the editor counts behind the text in front of the
name, it answers with the stretch of the symbol and with its detail. That place is the start of the
stretch exactly if the text in front of the name has no line boundary of the editor but newlines and
its last line no character of two units. -/
theorem definition_at_declared_name (workspace : Workspace) (uri text : String)
    (quiet : (analyze uri text).notices = []) :
    ∃ symbols, (analyze uri text).symbols = some symbols ∧
      ∀ symbol, (symbols.filter fun other => other.name == symbol.name).getLast? = some symbol →
        ∃ front back, text.toList = front ++ (symbol.name.toList ++ back) ∧
          symbol.line = front.count '\n' ∧ symbol.column = (Text.lastLine front).length ∧
          symbol.FoundAt (workspace.openDocument uri text).2 uri (placeBehind front) ∧
          (placeBehind front = (symbol.line, symbol.column) ↔
            Text.NewlinesOnly front ∧
              ∀ char ∈ Text.lastLine front, Text.unitsOfChar char = 1) := by
  obtain ⟨accepted, program, parsed⟩ := quiet_of_notices quiet
  have analyzed : (analyze uri text).symbols = some _ :=
    symbols_eq_some_iff.mpr ⟨program, parsed, rfl⟩
  refine ⟨_, analyzed, fun symbol last => ?_⟩
  have listed := List.mem_of_mem_filter (List.mem_of_getLast? last)
  obtain ⟨declaration, declared, rfl⟩ := List.mem_map.mp listed
  obtain ⟨front, back, whole, place, nonempty, before, letters, behind⟩ :=
    Program.declared_word parsed accepted declared
  rw [Position.behind_eq] at place
  have line : (Symbol.ofDeclarator uri declaration.1 declaration.2).line = front.count '\n' := by
    simp [Symbol.ofDeclarator, place]
  have column : (Symbol.ofDeclarator uri declaration.1 declaration.2).column =
      (Text.lastLine front).length := by
    simp [Symbol.ofDeclarator, place]
  refine ⟨front, back, whole, line, column, ?_, ?_⟩
  -- The word at the place is the whole name, and the index answers with its last declaration.
  · have word := wordAt_placeBehind whole nonempty before letters behind
    rw [String.ofList_toList] at word
    have named : wordAt text (placeBehind front).1 (placeBehind front).2 ≠ "" := by
      intro empty
      rw [word] at empty
      exact nonempty (by rw [empty]; rfl)
    have found : (workspace.openDocument uri text).2.declarationAt? uri (placeBehind front).1
        (placeBehind front).2 = some (some (.ofDeclarator uri declaration.1 declaration.2)) := by
      rw [Workspace.declarationAt?_openDocument analyzed named, word]
      exact congrArg some last
    exact Symbol.foundAt_of_declarationAt? (by rfl) found
  · rw [line, column]
    exact placeBehind_eq_iff

theorem waving_quiet : (analyze "a.script" waving).notices = [] := by
  decide +kernel

theorem waving_definitions :
    (analyze "a.script" waving).notices = [] ∧
      ∃ symbols, (analyze "a.script" waving).symbols = some symbols ∧
        ∀ symbol, (symbols.filter fun other => other.name == symbol.name).getLast? = some symbol →
          ∃ front, symbol.FoundAt (Workspace.empty.openDocument "a.script" waving).2 "a.script"
            (placeBehind front) := by
  obtain ⟨symbols, analyzed, found⟩ :=
    definition_at_declared_name Workspace.empty "a.script" waving waving_quiet
  refine ⟨waving_quiet, symbols, analyzed, fun symbol last => ?_⟩
  obtain ⟨front, _, _, _, _, foundAt, _⟩ := found symbol last
  exact ⟨front, foundAt⟩

/-- At the start of the stretch of `b`, behind a character of two units, nothing is found. -/
theorem waving_lost_at_start :
    ∃ symbols symbol, (analyze "a.script" waving).notices = [] ∧
      (analyze "a.script" waving).symbols = some symbols ∧
      (symbols.filter fun other => other.name == symbol.name).getLast? = some symbol ∧
      symbol.name = "b" ∧
      ¬ symbol.FoundAt (Workspace.empty.openDocument "a.script" waving).2 "a.script"
        (symbol.line, symbol.column) := by
  have computed : (analyze "a.script" waving).symbols.map (fun symbols =>
      (symbols.filter fun other => other.name == "b").getLast?) =
        some (some ⟨"b", "a.script", 2, 22, "DECLARE STRING b"⟩) := by
    decide +kernel
  obtain ⟨symbols, analyzed, last⟩ := Option.map_eq_some_iff.mp computed
  refine ⟨symbols, ⟨"b", "a.script", 2, 22, "DECLARE STRING b"⟩, waving_quiet, analyzed, last,
    rfl, ?_⟩
  unfold Symbol.FoundAt
  decide +kernel

end Editor

end LineScript
