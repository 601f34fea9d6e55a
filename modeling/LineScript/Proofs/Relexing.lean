/-
Module: LineScript.Proofs.Relexing
Purpose: The tokens of a source text, written with single spaces between them, are lexed again.
Trusted boundary: none
Main exports: Token.StandsAlone, Token.spaced, placed_spacedPieces, lex_spaced
-/
import LineScript.Proofs.StringUnits

/-!
A token was cut off with a text behind it, but nothing behind it was needed: every rule that takes a
token takes the same token when its lexeme stands alone. No token starts with a blank, and a space
ends every token, so lexemes with single spaces between them are cut at just these spaces. What was
rejected is not among the lexemes, hence nothing is rejected.
-/

namespace LineScript

/-! ### Every token is cut off its own lexeme -/

namespace Piece

/-- A rule of cutting that takes its tokens again when nothing stands behind them. -/
def RecutsTokens (rule : Char → List Char → Piece × List Char) : Prop :=
  ∀ {char : Char} {rest tail : List Char} {kind : TokenKind} {value : Option Value},
    (rule char rest).1.role = .token kind value → (rule char rest).1.text = char :: tail →
      rule char tail = ((rule char rest).1, [])

theorem dropWhile_takeWhile {sort : Char → Bool} (text : List Char) :
    (text.takeWhile sort).dropWhile sort = [] :=
  List.dropWhile_eq_nil_iff.mpr fun _ member => List.mem_takeWhile_imp member

/-- A number is its first run of digits, or goes on behind a point. -/
theorem cutNumber_cases (first : Char) (rest : List Char) :
    (cutNumber first rest).1 = integer (first :: rest.takeWhile Text.isDigit) ∨
      ∃ (digit : Char) (more : List Char), Text.isDigit digit ∧
        (cutNumber first rest).1 =
          float (first :: rest.takeWhile Text.isDigit) (digit :: more.takeWhile Text.isDigit) := by
  unfold cutNumber
  split
  · rename_i digit more _
    split
    · rename_i isDigit
      exact .inr ⟨digit, more, isDigit, rfl⟩
    · exact .inl rfl
  · exact .inl rfl

theorem cutNumber_recuts : RecutsTokens cutNumber := by
  intro first rest tail kind value _ text
  rcases cutNumber_cases first rest with whole | ⟨digit, more, isDigit, parted⟩
  · rw [whole, integer_text] at text
    obtain ⟨-, rfl⟩ := List.cons.inj text
    rw [whole, cutNumber, dropWhile_takeWhile, List.takeWhile_idem]
  · have excluded : Text.isDigit '.' = false := by decide
    rw [parted] at text
    have behind : rest.takeWhile Text.isDigit ++ '.' :: digit :: more.takeWhile Text.isDigit =
        tail := (List.cons.inj text).2
    rw [parted, ← behind, cutNumber, takeWhile_append_stop excluded, dropWhile_append_stop excluded,
      dropWhile_takeWhile, List.takeWhile_idem, List.nil_append]
    simp only [if_pos isDigit, List.takeWhile_idem, dropWhile_takeWhile]

theorem cutString_recuts : RecutsTokens cutString := by
  intro quote rest tail kind value token text
  obtain ⟨units, more, rfl⟩ := exists_units_of_cutString token
  rw [cutString_units] at text ⊢
  obtain ⟨-, rfl⟩ := List.cons.inj text
  exact cutString_units quote units []

theorem cutCharacter_recuts : RecutsTokens cutCharacter := by
  intro quote rest tail kind value token text
  obtain ⟨char, more, other, rfl⟩ := exists_of_cutCharacter token
  rw [cutCharacter_closed other] at text ⊢
  obtain ⟨-, rfl⟩ := List.cons.inj text
  exact cutCharacter_closed other quote []

theorem cutEscape_recuts : RecutsTokens cutEscape := by
  intro bracket rest tail kind value token text
  obtain ⟨letter, more, other, rfl⟩ := exists_of_cutEscape token
  rw [cutEscape_closed other] at text ⊢
  obtain ⟨-, rfl⟩ := List.cons.inj text
  exact cutEscape_closed other bracket []

theorem cutWord_recuts : RecutsTokens cutWord := by
  intro first rest tail kind value _ text
  obtain ⟨-, rfl⟩ := List.cons.inj text
  rw [cutWord, dropWhile_takeWhile, List.takeWhile_idem]
  rfl

/-- What follows a single character has no part in it. -/
theorem cutSingle_eq (char : Char) (rest : List Char) :
    cutSingle char rest = ((cutSingle char []).1, rest) ∧ (cutSingle char []).1.text = [char] := by
  unfold cutSingle
  split
  · exact ⟨rfl, rfl⟩
  · exact ⟨rfl, rfl⟩

theorem cutOperator_pair {first second : Char} {kind : TokenKind}
    (pair : pairKind? first second = some kind) (rest : List Char) :
    cutOperator first (second :: rest) = (plain kind [first, second], rest) := by
  rw [cutOperator, pair]

theorem cutOperator_recuts : RecutsTokens cutOperator := by
  intro char rest tail kind value _ text
  obtain ⟨same, alone⟩ := cutSingle_eq char rest
  have single : cutOperator char rest = cutSingle char rest →
      cutOperator char tail = ((cutOperator char rest).1, []) := by
    intro found
    rw [found, same, alone] at text
    obtain ⟨-, rfl⟩ := List.cons.inj text
    rw [found, same]
    exact (cutSingle_eq char []).1
  cases rest with
  | nil => exact single rfl
  | cons second more =>
    cases pair : pairKind? char second with
    | none => exact single (by rw [cutOperator, pair])
    | some kind =>
      rw [cutOperator_pair pair] at text ⊢
      obtain ⟨-, rfl⟩ := List.cons.inj text
      exact cutOperator_pair pair []

/-- Every token is cut off again when nothing stands behind it. -/
theorem cut_recuts : RecutsTokens cut := by
  intro char rest tail kind value token text
  -- What was no comment in front of the rest of the text is none in front of less of it.
  have second : tail.head? = some '%' → rest.head? = some '%' := by
    obtain ⟨taken, same, whole⟩ := cut_faithful char rest
    obtain ⟨-, rfl⟩ := List.cons.inj (text.symm.trans same)
    intro first
    rw [← whole, List.head?_append, first, Option.some_or]
  by_cases comment : char = '%' ∧ rest.head? = some '%'
  · rw [cut, if_pos comment] at token
    cases token
  have uncommented : ¬(char = '%' ∧ tail.head? = some '%') :=
    fun both => comment ⟨both.1, second both.2⟩
  revert token text
  unfold cut
  rw [if_neg comment, if_neg uncommented]
  -- The branches of `cut` in their order; both texts take the same one by their first character.
  split
  · intro _ text
    obtain ⟨-, rfl⟩ := List.cons.inj text
    rfl
  split
  · intro token
    cases token
  split
  · exact cutNumber_recuts
  split
  · exact cutString_recuts
  split
  · exact cutCharacter_recuts
  split
  · exact cutEscape_recuts
  split
  · exact cutWord_recuts
  · exact cutOperator_recuts

end Piece

/-! ### Tokens with single spaces between them -/

namespace Token

/-- A token without its place. -/
def piece (token : Token) : Piece :=
  ⟨.token token.kind token.literal, token.lexeme.toList⟩

/-- What a token is apart from where it stands: its kind, its lexeme and what it denotes. -/
def content (token : Token) : TokenKind × String × Option Value :=
  (token.kind, token.lexeme, token.literal)

/-- A token that is cut off its own lexeme. -/
def StandsAlone (token : Token) : Prop :=
  ∃ char tail, token.lexeme.toList = char :: tail ∧ Piece.cut char tail = (token.piece, [])

/-- The lexemes of tokens, but of none that ends a text, with a space between each two. -/
def spaced (tokens : List Token) : String :=
  " ".intercalate ((tokens.filter (·.kind != .eof)).map lexeme)

end Token

theorem standsAlone_of_mem_placed {source : List Char} {position : Position} {token : Token}
    (member : token ∈ placed Piece.token? position (pieces source)) : token.StandsAlone := by
  obtain ⟨place, char, rest, kind, value, role, rfl⟩ := exists_cut_of_token member
  obtain ⟨tail, text, -⟩ := Piece.cut_faithful char rest
  have same : Token.piece ⟨kind, String.ofList (Piece.cut char rest).1.text, value, place⟩ =
      (Piece.cut char rest).1 := by
    rw [Token.piece, String.toList_ofList, ← role]
  refine ⟨char, tail, ?_, ?_⟩
  · rw [String.toList_ofList, text]
  · rw [same]
    exact Piece.cut_recuts role text

namespace Token.StandsAlone

variable {token : Token}

/-- The token that ends a text has no lexeme to be cut off. -/
theorem kind_ne_eof (alone : token.StandsAlone) : token.kind ≠ .eof := by
  obtain ⟨char, tail, -, cut⟩ := alone
  have proper := Piece.cut_proper char tail
  rw [cut] at proper
  rcases proper with ⟨newline, -⟩ | ⟨-, notEnd, -⟩
  · intro last
    cases newline.symm.trans last
  · exact notEnd

/-- A gap starts with a blank, so no token does. -/
theorem not_isGapChar_head (alone : token.StandsAlone) :
    ∃ char tail, token.lexeme.toList = char :: tail ∧ ¬ Piece.isGapChar char := by
  obtain ⟨char, tail, lexeme, cut⟩ := alone
  refine ⟨char, tail, lexeme, fun blank => ?_⟩
  rw [Piece.cut_blank blank] at cut
  cases congrArg (Piece.role ∘ Prod.fst) cut

theorem pieces_lexeme (alone : token.StandsAlone) :
    pieces token.lexeme.toList = [token.piece] := by
  obtain ⟨char, tail, lexeme, cut⟩ := alone
  rw [lexeme, pieces, cut, pieces]

/-- A space ends the token in front of it. -/
theorem pieces_lexeme_append (alone : token.StandsAlone) (following : List Char) :
    pieces (token.lexeme.toList ++ ' ' :: following) =
      token.piece :: pieces (' ' :: following) := by
  obtain ⟨char, tail, lexeme, cut⟩ := alone
  have role : (Piece.cut char tail).1.role = .token token.kind token.literal := by
    rw [cut, piece]
  rw [lexeme, List.cons_append, pieces, Piece.cut_append_space role, cut, List.nil_append]

/-- A space in front of a token is a gap by itself. -/
theorem pieces_space_append (alone : token.StandsAlone) (following : List Char) :
    pieces (' ' :: token.lexeme.toList ++ following) =
      ⟨.gap, [' ']⟩ :: pieces (token.lexeme.toList ++ following) := by
  obtain ⟨char, tail, lexeme, other⟩ := alone.not_isGapChar_head
  refine pieces_space fun first head => ?_
  rw [lexeme] at head
  obtain rfl : char = first := by simpa using head
  exact other

end Token.StandsAlone

/-- The pieces of tokens with a space between each two. -/
def Token.spacedPieces (tokens : List Token) : List Piece :=
  (tokens.map Token.piece).intersperse ⟨.gap, [' ']⟩

theorem exists_intercalate_cons (separator first : List Char) (others : List (List Char)) :
    ∃ following, separator.intercalate (first :: others) = first ++ following := by
  cases others with
  | nil => exact ⟨[], by rw [List.intercalate_singleton, List.append_nil]⟩
  | cons second more => exact ⟨_, by rw [List.intercalate_cons_cons, List.append_assoc]⟩

/-- Lexemes with single spaces between them are cut at these spaces. -/
theorem pieces_intercalate {tokens : List Token} (alone : ∀ token ∈ tokens, token.StandsAlone) :
    pieces ([' '].intercalate (tokens.map fun token => token.lexeme.toList)) =
      Token.spacedPieces tokens := by
  induction tokens with
  | nil =>
    rw [List.map_nil, List.intercalate_nil, pieces]
    rfl
  | cons first rest inductionHypothesis =>
    obtain ⟨firstAlone, others⟩ := List.forall_mem_cons.mp alone
    cases rest with
    | nil =>
      rw [List.map_singleton, List.intercalate_singleton, firstAlone.pieces_lexeme]
      rfl
    | cons second more =>
      have further := inductionHypothesis others
      have secondAlone := others second List.mem_cons_self
      rw [List.map_cons] at further
      obtain ⟨following, behind⟩ := exists_intercalate_cons [' '] second.lexeme.toList
        (more.map fun token => token.lexeme.toList)
      rw [List.map_cons, List.map_cons, List.intercalate_cons_cons, List.append_assoc,
        List.singleton_append, firstAlone.pieces_lexeme_append, behind, ← List.cons_append,
        secondAlone.pieces_space_append, ← behind, further]
      rfl

theorem Token.token?_piece (token : Token) (position : Position) :
    token.piece.token? position = some { token with position } := by
  rw [Piece.token?, piece, String.ofList_toList]

/-- Wherever they are placed, the same tokens are read off their pieces, and no error. -/
theorem placed_spacedPieces (tokens : List Token) (position : Position) :
    (placed Piece.token? position (Token.spacedPieces tokens)).map Token.content =
        tokens.map Token.content ∧
      placed Piece.error? position (Token.spacedPieces tokens) = [] := by
  induction tokens generalizing position with
  | nil => exact ⟨rfl, rfl⟩
  | cons first rest inductionHypothesis =>
    cases rest with
    | nil =>
      rw [Token.spacedPieces, List.map_singleton, List.intersperse_singleton, placed_cons,
        placed_cons, Token.token?_piece]
      exact ⟨rfl, rfl⟩
    | cons second more =>
      have split : Token.spacedPieces (first :: second :: more) =
          first.piece :: ⟨.gap, [' ']⟩ :: Token.spacedPieces (second :: more) := rfl
      obtain ⟨contents, accepted⟩ := inductionHypothesis
        ((position.after first.piece.text).after [' '])
      rw [split, placed_cons, placed_cons, placed_cons, placed_cons, Token.token?_piece, accepted]
      refine ⟨?_, rfl⟩
      rw [Piece.token?_skipsGaps _ _ rfl, List.map_append, List.map_append, contents]
      rfl

/-- Lexing is stable. Whatever a source text holds, the lexemes of its tokens with single spaces
between them, newlines among them, are lexed as the same tokens again, apart from where they stand,
and nothing is rejected. -/
theorem lex_spaced (source : String) :
    (lex (Token.spaced (lex source).tokens)).tokens.map Token.content =
        (lex source).tokens.map Token.content ∧
      (lex (Token.spaced (lex source).tokens)).errors = [] := by
  have whole := lex_eq source
  generalize read : placed Piece.token? .start (pieces source.toList) = tokens at whole
  have alone : ∀ token ∈ tokens, token.StandsAlone := by
    intro token member
    rw [← read] at member
    exact standsAlone_of_mem_placed member
  have kept : tokens.filter (·.kind != .eof) = tokens := by
    refine List.filter_eq_self.mpr fun token member => ?_
    simpa using (alone token member).kind_ne_eof
  have spaced : (Token.spaced (lex source).tokens).toList =
      [' '].intercalate (tokens.map fun token => token.lexeme.toList) := by
    rw [whole, Token.spaced, List.filter_append, kept]
    simp [Token.endAt, Function.comp_def]
  obtain ⟨contents, accepted⟩ := placed_spacedPieces tokens .start
  rw [lex_eq (Token.spaced _), spaced, pieces_intercalate alone, whole]
  constructor
  · rw [List.map_append, List.map_append, contents]
    rfl
  · exact accepted

end LineScript
