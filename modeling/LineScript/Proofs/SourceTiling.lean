/-
Module: LineScript.Proofs.SourceTiling
Purpose: Tokens, gaps and rejected fragments cover a source text exactly, at exact positions.
Trusted boundary: none
Main exports: Position.behind, Tiles, Proper, placed, locate_pieces, lexChars_eq, lex_tiles
-/
import LineScript.Report
import Mathlib.Data.List.Basic
import Mathlib.Data.List.TakeWhile

/-!
Lexing loses nothing: a source text is the lexemes of its tokens, the blanks and comments between
them and the fragments that were rejected, one after the other, and every rejected fragment is one
lexical error. `Tiles` says so by walking along a text with what stands in front of it. Positions
are told from the text in front by counting newlines and characters, not by following a lexer.
-/

namespace LineScript

/-! ### Positions -/

namespace Position

/-- The place just behind a text that stands at the start: one line more than it has newlines, one
column more than there are characters behind the last of them. -/
def behind (text : List Char) : Position :=
  ⟨text.count '\n' + 1, (text.reverse.takeWhile (· != '\n')).length + 1⟩

/-- A position behind a text and one character more. -/
theorem next_behind (text : List Char) (char : Char) :
    (behind text).next char = behind (text ++ [char]) := by
  unfold next behind
  by_cases newline : char = '\n'
  · simp [newline]
  · have other : '\n' ≠ char := fun same => newline same.symm
    simp [newline, List.count_append]

/-- Following a text character by character leads to the place that counting gives. -/
theorem after_behind (before text : List Char) :
    (behind before).after text = behind (before ++ text) := by
  induction text generalizing before with
  | nil => rw [after_nil, List.append_nil]
  | cons char rest inductionHypothesis =>
    rw [after_cons, next_behind, inductionHypothesis, List.append_assoc, List.singleton_append]

/-- From the start of a text, passing it ends behind it. -/
theorem after_start (text : List Char) : start.after text = behind text :=
  after_behind [] text

end Position

/-! ### Tilings -/

/-- Behind a text, the rest is covered by tokens, gaps and rejected fragments without gap or
overlap. The tokens are those of the rest with the one that ends it, and the errors those of the
rejected fragments, all in order and each at the place just behind the text in front of it. -/
inductive Tiles : List Char → List Char → List Token → List LexicalError → Prop where
  | done (before : List Char) : Tiles before [] [Token.endAt (.behind before)] []
  /-- The only token that holds a newline is the newline itself. -/
  | newline {before rest : List Char} {tokens : List Token} {errors : List LexicalError}
      (others : Tiles (before ++ ['\n']) rest tokens errors) :
      Tiles before (['\n'] ++ rest) (⟨.newline, "\n", none, .behind before⟩ :: tokens) errors
  | token {before text rest : List Char} {tokens : List Token} {errors : List LexicalError}
      (kind : TokenKind) (literal : Option Value) (nonempty : text ≠ []) (oneLine : '\n' ∉ text)
      (notNewline : kind ≠ .newline) (notEnd : kind ≠ .eof)
      (others : Tiles (before ++ text) rest tokens errors) :
      Tiles before (text ++ rest)
        (⟨kind, String.ofList text, literal, .behind before⟩ :: tokens) errors
  /-- A run of blanks, as long as it can be. -/
  | blanks {before text rest : List Char} {tokens : List Token} {errors : List LexicalError}
      (nonempty : text ≠ []) (blank : ∀ char ∈ text, char ∈ [' ', '\t', '\r'])
      (longest : ∀ char ∈ rest.head?, char ∉ [' ', '\t', '\r'])
      (others : Tiles (before ++ text) rest tokens errors) :
      Tiles before (text ++ rest) tokens errors
  /-- A comment runs up to the end of its line. -/
  | comment {before text rest : List Char} {tokens : List Token} {errors : List LexicalError}
      (opened : ['%', '%'] <+: text) (oneLine : '\n' ∉ text)
      (lineEnd : ∀ char ∈ rest.head?, char = '\n')
      (others : Tiles (before ++ text) rest tokens errors) :
      Tiles before (text ++ rest) tokens errors
  /-- A fragment that is rejected once, the report showing it or the start of it. -/
  | rejected {before text rest shown : List Char} {tokens : List Token}
      {errors : List LexicalError} (message : String) (nonempty : text ≠ []) (oneLine : '\n' ∉ text)
      (shows : shown <+: text) (others : Tiles (before ++ text) rest tokens errors) :
      Tiles before (text ++ rest) tokens
        (⟨message, String.ofList shown, .behind before⟩ :: errors)

/-- The last of some tokens, and no other, ends a text, at the given place. -/
def EndsAt (position : Position) (tokens : List Token) : Prop :=
  ∃ front, tokens = front ++ [Token.endAt position] ∧ ∀ token ∈ front, token.kind ≠ .eof

theorem EndsAt.cons {position : Position} {token : Token} {tokens : List Token}
    (notEnd : token.kind ≠ .eof) (ends : EndsAt position tokens) :
    EndsAt position (token :: tokens) := by
  obtain ⟨front, rfl, proper⟩ := ends
  exact ⟨token :: front, rfl, List.forall_mem_cons.mpr ⟨notEnd, proper⟩⟩

namespace Tiles

variable {before rest : List Char} {tokens : List Token} {errors : List LexicalError}

/-- The token that ends a tiling stands just behind the whole text. -/
theorem endsAt (tiles : Tiles before rest tokens errors) :
    EndsAt (.behind (before ++ rest)) tokens := by
  induction tiles with
  | done before =>
    rw [List.append_nil]
    exact ⟨[], rfl, List.forall_mem_nil _⟩
  | newline _ inductionHypothesis =>
    rw [List.append_assoc] at inductionHypothesis
    exact inductionHypothesis.cons (by simp)
  | token kind literal _ _ _ notEnd _ inductionHypothesis =>
    rw [List.append_assoc] at inductionHypothesis
    exact inductionHypothesis.cons notEnd
  | blanks _ _ _ _ inductionHypothesis => rwa [List.append_assoc] at inductionHypothesis
  | comment _ _ _ _ inductionHypothesis => rwa [List.append_assoc] at inductionHypothesis
  | rejected _ _ _ _ _ inductionHypothesis => rwa [List.append_assoc] at inductionHypothesis

/-- Only newlines hold newlines. -/
theorem mem_newline_iff (tiles : Tiles before rest tokens errors) :
    ∀ token ∈ tokens, '\n' ∈ token.lexeme.toList ↔ token.kind = .newline := by
  induction tiles with
  | done before => simp [Token.endAt]
  | newline _ inductionHypothesis =>
    exact List.forall_mem_cons.mpr ⟨by simp, inductionHypothesis⟩
  | token kind literal _ oneLine notNewline _ _ inductionHypothesis =>
    refine List.forall_mem_cons.mpr ⟨?_, inductionHypothesis⟩
    simp [oneLine, notNewline]
  | blanks _ _ _ _ inductionHypothesis => exact inductionHypothesis
  | comment _ _ _ _ inductionHypothesis => exact inductionHypothesis
  | rejected _ _ _ _ _ inductionHypothesis => exact inductionHypothesis

end Tiles

/-! ### Every piece is a tile -/

namespace TokenKind

theorem ofWord_mem (word : String) : ofWord word ∈ .identifier :: keywords := by
  unfold ofWord
  cases found : keywords.find? fun kind => kind.label == word with
  | none => exact List.mem_cons_self
  | some kind => exact List.mem_cons_of_mem _ (List.mem_of_find?_eq_some found)

/-- A word has no kind but those of the reserved words and the identifiers. -/
theorem ofWord_ne {word : String} {kind : TokenKind}
    (absent : kind ∉ .identifier :: keywords) : ofWord word ≠ kind :=
  fun same => absent (same ▸ ofWord_mem word)

end TokenKind

namespace Piece

/-- What the text of a piece is by its role, in front of what follows it. -/
def Proper (piece : Piece) (rest : List Char) : Prop :=
  match piece.role with
  | .token kind literal =>
    (kind = .newline ∧ literal = none ∧ piece.text = ['\n']) ∨
      (kind ≠ .newline ∧ kind ≠ .eof ∧ '\n' ∉ piece.text)
  | .gap =>
    ((∀ char ∈ piece.text, char ∈ [' ', '\t', '\r']) ∧
        ∀ char ∈ rest.head?, char ∉ [' ', '\t', '\r']) ∨
      (['%', '%'] <+: piece.text ∧ '\n' ∉ piece.text ∧ ∀ char ∈ rest.head?, char = '\n')
  | .rejected _ shown => '\n' ∉ piece.text ∧ shown <+: piece.text

/-- A proper piece in front of a tiling makes a tiling. -/
theorem Proper.tiles {piece : Piece} {before rest : List Char} {tokens : List Token}
    {errors : List LexicalError} (proper : piece.Proper rest) (nonempty : piece.text ≠ [])
    (others : Tiles (before ++ piece.text) rest tokens errors) :
    Tiles before (piece.text ++ rest) ((piece.token? (.behind before)).toList ++ tokens)
      ((piece.error? (.behind before)).toList ++ errors) := by
  obtain ⟨role, text⟩ := piece
  cases role with
  | token kind literal =>
    rcases proper with ⟨rfl, rfl, rfl⟩ | ⟨notNewline, notEnd, oneLine⟩
    · exact .newline others
    · exact .token kind literal nonempty oneLine notNewline notEnd others
  | gap =>
    rcases proper with ⟨blank, longest⟩ | ⟨opened, oneLine, lineEnd⟩
    · exact .blanks nonempty blank longest others
    · exact .comment opened oneLine lineEnd others
  | rejected message shown => exact .rejected message nonempty proper.1 proper.2 others

variable {rest : List Char}

theorem proper_reject {text : List Char} (message : String) (oneLine : '\n' ∉ text) :
    (reject message text).Proper rest :=
  ⟨oneLine, List.prefix_refl text⟩

theorem mem_gapChars {char : Char} : isGapChar char ↔ char ∈ [' ', '\t', '\r'] := by
  simp [isGapChar, or_assoc]

/-- A run of characters that excludes newlines has none. -/
theorem newline_not_mem_takeWhile {sort : Char → Bool} (text : List Char)
    (excluded : sort '\n' = false) : '\n' ∉ text.takeWhile sort := by
  intro member
  have holds := List.mem_takeWhile_imp member
  rw [excluded] at holds
  cases holds

theorem head_dropWhile {sort : Char → Bool} {text : List Char} :
    ∀ char ∈ (text.dropWhile sort).head?, sort char = false := by
  intro char first
  have refused := List.head?_dropWhile_not sort text
  rw [Option.mem_def.mp first] at refused
  simpa using refused

theorem cutComment_proper (rest : List Char) (second : rest.head? = some '%') :
    (cutComment '%' rest).1.Proper (cutComment '%' rest).2 := by
  obtain ⟨more, rfl⟩ : ∃ more, rest = '%' :: more := by
    cases rest with
    | nil => cases second
    | cons first more => exact ⟨more, by simpa using second⟩
  have inside : '\n' ∉ ('%' :: more).takeWhile (· != '\n') := newline_not_mem_takeWhile _ rfl
  refine .inr ⟨?_, ?_, ?_⟩
  · exact ⟨more.takeWhile (· != '\n'), rfl⟩
  · exact List.not_mem_cons_of_ne_of_not_mem (by decide) inside
  · intro char first
    simpa using head_dropWhile char first

theorem cutGap_proper {char : Char} (gap : isGapChar char) (rest : List Char) :
    (cutGap char rest).1.Proper (cutGap char rest).2 := by
  refine .inl ⟨?_, ?_⟩
  · refine List.forall_mem_cons.mpr ⟨mem_gapChars.mp gap, fun other member => ?_⟩
    exact mem_gapChars.mp (List.mem_takeWhile_imp member)
  · intro other first member
    have refused := head_dropWhile other first
    rw [mem_gapChars.mpr member] at refused
    cases refused

/-- A token that is neither a newline nor the end is proper wherever it holds no newline. -/
theorem proper_token {kind : TokenKind} {text : List Char} (value : Option Value)
    (notNewline : kind ≠ .newline) (notEnd : kind ≠ .eof) (oneLine : '\n' ∉ text) :
    (Piece.mk (.token kind value) text).Proper rest :=
  .inr ⟨notNewline, notEnd, oneLine⟩

/-- Whether it is short enough or rejected, an integer is proper. -/
theorem integer_proper {digits : List Char} (oneLine : '\n' ∉ digits) :
    (integer digits).Proper rest := by
  unfold integer
  split
  · exact ⟨oneLine, List.take_prefix shownDigits digits⟩
  · exact proper_token _ (by decide) (by decide) oneLine

/-- A number stays on its line, with a fraction or without. -/
theorem cutNumber_proper {first : Char} (other : first ≠ '\n') (rest : List Char) :
    (cutNumber first rest).1.Proper (cutNumber first rest).2 := by
  have whole : '\n' ∉ first :: rest.takeWhile Text.isDigit :=
    List.not_mem_cons_of_ne_of_not_mem other.symm (newline_not_mem_takeWhile rest (by decide))
  unfold cutNumber
  split
  · rename_i digit more _
    split
    · rename_i isDigit
      -- The point stands between two runs of digits.
      have fraction : '\n' ∉ digit :: more.takeWhile Text.isDigit := by
        refine List.not_mem_cons_of_ne_of_not_mem ?_ (newline_not_mem_takeWhile more (by decide))
        rintro rfl
        exact absurd isDigit (by decide)
      refine proper_token _ (by decide) (by decide) ?_
      rw [List.mem_append, not_or]
      exact ⟨whole, List.not_mem_cons_of_ne_of_not_mem (by decide) fraction⟩
    · exact integer_proper whole
  · exact integer_proper whole

/-- The body of a string stays on its line. -/
theorem newline_not_mem_body (text : List Char) : '\n' ∉ (Escape.body text).1 := by
  fun_induction Escape.body text with
  | case1 => simp
  | case2 letter rest other taken after split inductionHypothesis =>
    rw [split] at inductionHypothesis
    simp [inductionHypothesis, Ne.symm other]
  | case3 char rest _ plain taken after split inductionHypothesis =>
    rw [split] at inductionHypothesis
    have other : '\n' ≠ char := by
      rintro rfl
      cases plain
    simp [inductionHypothesis, other]
  | case4 => simp
  | case5 => simp

theorem newline_not_mem_broken (text : List Char) : '\n' ∉ (Escape.broken text).1 := by
  fun_cases Escape.broken text <;> simp_all [eq_comm]

/-- A string is a token or a rejected fragment, and a fragment breaks off where it says. -/
theorem cutString_proper {quote : Char} (other : quote ≠ '\n') (rest : List Char) :
    (cutString quote rest).1.Proper (cutString quote rest).2 := by
  have inBody := newline_not_mem_body rest
  have inBroken := newline_not_mem_broken (Escape.body rest).2
  unfold cutString
  simp only
  split
  · refine proper_token _ (by decide) (by decide) ?_
    simp [inBody, other.symm]
  · refine proper_reject _ ?_
    simp [inBody, inBroken, other.symm]

theorem cutCharacter_proper {quote : Char} (other : quote ≠ '\n') (rest : List Char) :
    (cutCharacter quote rest).1.Proper (cutCharacter quote rest).2 := by
  unfold cutCharacter
  simp only
  split
  · split
    · exact proper_reject _ (by simp [other.symm])
    · rename_i inside
      split
      · exact proper_token _ (by decide) (by decide) (by simp [other.symm, Ne.symm inside])
      · exact proper_reject _ (by simp [other.symm, Ne.symm inside])
  · exact proper_reject _ (by simp [other.symm])

theorem cutEscape_proper {bracket : Char} (other : bracket ≠ '\n') (rest : List Char) :
    (cutEscape bracket rest).1.Proper (cutEscape bracket rest).2 := by
  unfold cutEscape
  split
  · split
    · exact proper_reject _ (by simp [other.symm])
    · rename_i inside
      split
      · exact proper_token _ (by decide) (by decide) (by simp [other.symm, Ne.symm inside])
      · exact proper_reject _ (by simp [other.symm, Ne.symm inside])
  · exact proper_reject _ (by simp [other.symm])

theorem cutWord_proper {first : Char} (other : first ≠ '\n') (rest : List Char) :
    (cutWord first rest).1.Proper (cutWord first rest).2 :=
  proper_token _ (TokenKind.ofWord_ne (by decide)) (TokenKind.ofWord_ne (by decide))
    (List.not_mem_cons_of_ne_of_not_mem other.symm (newline_not_mem_takeWhile rest (by decide)))

theorem singleKind?_ne {char : Char} {kind : TokenKind} (found : singleKind? char = some kind) :
    kind ≠ .newline ∧ kind ≠ .eof := by
  unfold singleKind? at found
  split at found <;> cases found <;> decide

theorem pairKind?_ne {first second : Char} {kind : TokenKind}
    (found : pairKind? first second = some kind) :
    second ≠ '\n' ∧ kind ≠ .newline ∧ kind ≠ .eof := by
  unfold pairKind? at found
  split at found <;> cases found <;> decide

theorem cutSingle_proper {char : Char} (other : char ≠ '\n') (rest : List Char) :
    (cutSingle char rest).1.Proper (cutSingle char rest).2 := by
  unfold cutSingle
  split
  · rename_i kind found
    obtain ⟨notNewline, notEnd⟩ := singleKind?_ne found
    exact proper_token _ notNewline notEnd (by simp [other.symm])
  · exact proper_reject _ (by simp [other.symm])

/-- An operator is spelled as its kind, and any other character is rejected. -/
theorem cutOperator_proper {char : Char} (other : char ≠ '\n') (rest : List Char) :
    (cutOperator char rest).1.Proper (cutOperator char rest).2 := by
  unfold cutOperator
  split
  · split
    · rename_i kind found
      obtain ⟨second, notNewline, notEnd⟩ := pairKind?_ne found
      exact proper_token _ notNewline notEnd (by simp [other.symm, second.symm])
    · exact cutSingle_proper other _
  · exact cutSingle_proper other _

/-- Every rule of cutting gives a proper piece. -/
theorem cut_proper (char : Char) (rest : List Char) :
    (cut char rest).1.Proper (cut char rest).2 := by
  unfold cut
  split
  · rename_i doubled
    obtain ⟨rfl, second⟩ := doubled
    exact cutComment_proper rest second
  split
  · rename_i newline
    exact .inl ⟨rfl, rfl, newline ▸ rfl⟩
  rename_i other
  split
  · rename_i gap
    exact cutGap_proper gap rest
  split
  · exact cutNumber_proper other rest
  split
  · exact cutString_proper other rest
  split
  · exact cutCharacter_proper other rest
  split
  · exact cutEscape_proper other rest
  split
  · exact cutWord_proper other rest
  · exact cutOperator_proper other rest

/-- Every cut takes a character at least, so that cutting ends. -/
theorem cut_text_ne_nil (char : Char) (rest : List Char) : (cut char rest).1.text ≠ [] := by
  obtain ⟨tail, text, _⟩ := cut_faithful char rest
  rw [text]
  exact List.cons_ne_nil char tail

end Piece

/-! ### Placed pieces -/

/-- What is read off consecutive pieces, the first of them standing at the given position and every
other one behind the text of those in front of it. -/
def placed {α : Type} (read? : Position → Piece → Option α) : Position → List Piece → List α
  | _, [] => []
  | position, piece :: others =>
    (read? position piece).toList ++ placed read? (position.after piece.text) others

theorem placed_cons {α : Type} (read? : Position → Piece → Option α) (position : Position)
    (piece : Piece) (others : List Piece) :
    placed read? position (piece :: others) =
      (read? position piece).toList ++ placed read? (position.after piece.text) others := rfl

/-- What is read off the pieces of a text is read off one of them, which was cut off somewhere. -/
theorem exists_cut_of_mem_placed {α : Type} {read? : Position → Piece → Option α}
    (position : Position) (source : List Char) :
    ∀ item ∈ placed read? position (pieces source),
      ∃ place char rest, read? place (Piece.cut char rest).1 = some item := by
  fun_induction pieces source generalizing position with
  | case1 => exact List.forall_mem_nil _
  | case2 char rest found inductionHypothesis =>
    rw [placed_cons]
    refine List.forall_mem_append.mpr ⟨fun item member => ?_, inductionHypothesis _⟩
    exact ⟨position, char, rest, Option.mem_toList.mp member⟩

/-- The token of a piece has its kind, its text and its place. -/
theorem Piece.exists_role_of_token? {position : Position} {piece : Piece} {token : Token}
    (found : piece.token? position = some token) :
    ∃ kind value, piece.role = .token kind value ∧
      token = ⟨kind, String.ofList piece.text, value, position⟩ := by
  unfold token? at found
  split at found
  · rename_i kind value role
    exact ⟨kind, value, role, (Option.some.inj found).symm⟩
  · cases found

/-- Every token among the pieces of a text was cut off somewhere. -/
theorem exists_cut_of_token {position : Position} {source : List Char} {token : Token}
    (member : token ∈ placed Piece.token? position (pieces source)) :
    ∃ place char rest kind value, (Piece.cut char rest).1.role = .token kind value ∧
      token = ⟨kind, String.ofList (Piece.cut char rest).1.text, value, place⟩ := by
  obtain ⟨place, char, rest, found⟩ := exists_cut_of_mem_placed _ _ _ member
  obtain ⟨kind, value, role, shape⟩ := Piece.exists_role_of_token? found
  exact ⟨place, char, rest, kind, value, role, shape⟩

/-! ### Counted positions

Lexing itself does not follow the text of a piece character by character: it counts the characters
it has read and remembers where the line starts. The two agree because a piece either is a newline
or holds none. -/

/-- Behind a text on one line, the column has grown by its length. -/
theorem Position.after_oneLine {text : List Char} (oneLine : '\n' ∉ text) (position : Position) :
    position.after text = ⟨position.line, position.column + text.length⟩ := by
  induction text generalizing position with
  | nil => rfl
  | cons char rest inductionHypothesis =>
    obtain ⟨other, onward⟩ := not_or.mp (List.mem_cons.not.mp oneLine)
    rw [after_cons, inductionHypothesis onward, next, if_neg (Ne.symm other), List.length_cons,
      Nat.add_assoc, Nat.add_comm 1]

namespace LineCount

/-- A piece on one line that is no newline moves the column along. -/
theorem position_past_oneLine (count : LineCount) {piece : Piece}
    (other : ∀ literal, piece.role ≠ .token .newline literal) (oneLine : '\n' ∉ piece.text) :
    (count.past piece).position = count.position.after piece.text := by
  have same : (count.past piece).position =
      ⟨count.line, count.read + piece.text.length - count.lineStart + 1⟩ := by
    unfold past
    split
    · rename_i literal newline
      exact absurd newline (other literal)
    · rfl
  rw [same, Position.after_oneLine oneLine]
  have started := count.started
  simp only [position, Position.mk.injEq, true_and]
  omega

/-- The counters behind a proper piece give the place behind its text. -/
theorem position_past (count : LineCount) {piece : Piece} {rest : List Char}
    (proper : piece.Proper rest) :
    (count.past piece).position = count.position.after piece.text := by
  obtain ⟨role, text⟩ := piece
  cases role with
  | token kind literal =>
    rcases proper with ⟨rfl, rfl, rfl⟩ | ⟨notNewline, _, oneLine⟩
    · -- The newline starts a line right behind it.
      simp [past, position, Position.next]
    · refine count.position_past_oneLine (fun other same => notNewline ?_) oneLine
      exact (PieceRole.token.inj same).1
  | gap =>
    refine count.position_past_oneLine (fun _ => PieceRole.noConfusion) ?_
    rcases proper with ⟨blank, _⟩ | ⟨_, oneLine, _⟩
    · exact fun member => absurd (blank '\n' member) (by decide)
    · exact oneLine
  | rejected message shown =>
    exact count.position_past_oneLine (fun _ => PieceRole.noConfusion) proper.1

end LineCount

/-- Where lexing locates the pieces of a text is where they are placed by walking along the text,
and its counters end at the place behind the text. -/
theorem locate_pieces {α : Type} (read? : Position → Piece → Option α) (count : LineCount)
    (source : List Char) :
    (locate count (pieces source)).1.filterMap (fun (position, piece) => read? position piece) =
        placed read? count.position (pieces source) ∧
      (locate count (pieces source)).2.position = count.position.after source := by
  fun_induction pieces source generalizing count with
  | case1 => exact ⟨rfl, rfl⟩
  | case2 char rest found inductionHypothesis =>
    obtain ⟨others, reached⟩ := inductionHypothesis (count.past found.1)
    have moved := count.position_past (Piece.cut_proper char rest)
    refine ⟨?_, ?_⟩
    · rw [placed_cons, ← moved, ← others]
      simp only [locate, List.filterMap_eq_flatMap_toList, List.flatMap_cons]
    · rw [← Piece.cut_append char rest, Position.after_append, ← moved, ← reached]
      rfl

/-- Lexing reads tokens and errors off the pieces of a text, placed from its start. -/
theorem lexChars_eq (text : List Char) :
    lexChars text =
      ⟨placed Piece.token? .start (pieces text) ++ [Token.endAt (.behind text)],
        placed Piece.error? .start (pieces text)⟩ := by
  obtain ⟨tokens, reached⟩ := locate_pieces Piece.token? .start text
  have errors := (locate_pieces Piece.error? .start text).1
  simp only [lexChars, tokens, errors, reached]
  rw [← Position.after_start]
  rfl

theorem lex_eq (source : String) :
    lex source =
      ⟨placed Piece.token? .start (pieces source.toList) ++ [Token.endAt (.behind source.toList)],
        placed Piece.error? .start (pieces source.toList)⟩ :=
  lexChars_eq source.toList

/-! ### Lexing tiles the source text -/

/-- The pieces of a text, placed behind what stands in front of it, tile it. -/
theorem tiles_pieces (before source : List Char) :
    Tiles before source
      (placed Piece.token? (.behind before) (pieces source) ++
        [Token.endAt (.behind (before ++ source))])
      (placed Piece.error? (.behind before) (pieces source)) := by
  fun_induction pieces source generalizing before with
  | case1 =>
    rw [List.append_nil]
    exact .done before
  | case2 char rest found inductionHypothesis =>
    -- What follows the first piece stands behind the text in front of it and its own text.
    have others := inductionHypothesis (before ++ found.1.text)
    have tiles := (Piece.cut_proper char rest).tiles (Piece.cut_text_ne_nil char rest) others
    rw [List.append_assoc, Piece.cut_append] at tiles
    rwa [placed_cons, placed_cons, Position.after_behind, List.append_assoc]

/-- Lexing cuts every source text, without gap or overlap, into the lexemes of its tokens, blanks,
comments and rejected fragments, with one lexical report for each of the fragments and none besides.
Lines and columns of tokens and reports are exact, only newlines hold newlines, and one token, the
last, ends the text just behind its last character. -/
theorem lex_tiles (source : String) :
    Tiles [] source.toList (lex source).tokens (lex source).errors ∧
      EndsAt (.behind source.toList) (lex source).tokens ∧
      (∀ token ∈ (lex source).tokens, '\n' ∈ token.lexeme.toList ↔ token.kind = .newline) ∧
      ∀ log : Log, ((lex source).errors.foldl Log.addLexical log).reports =
        log.reports ++ (lex source).errors.map LexicalError.report := by
  have tiles : Tiles [] source.toList (lex source).tokens (lex source).errors := by
    rw [lex_eq]
    exact tiles_pieces [] source.toList
  exact ⟨tiles, tiles.endsAt, tiles.mem_newline_iff, Log.reports_foldl Log.addLexical_reports _⟩

end LineScript
