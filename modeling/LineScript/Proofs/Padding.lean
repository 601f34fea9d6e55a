/-
Module: LineScript.Proofs.Padding
Purpose: Source texts with blank lines put between their lines, and the tokens they have.
Trusted boundary: none
Main exports: Filler, PaddedLine, joined, movedLine, lexChars_append_newline, lexChars_padded
-/
import LineScript.Proofs.LineLocality
import LineScript.Proofs.ParallelParsing
import Mathlib.Algebra.GroupWithZero.Nat

/-!
Filler is blanks with a comment behind them, if any. A source text is padded by lines of filler
above its lines and by filler behind a space at their ends. Filler has no tokens and no errors, and
a space ends every token that is no part of a broken literal, so the lines of a text without lexical
errors keep their tokens, each moved down by the lines above it, and are kept apart by more newlines
than before.
-/

namespace LineScript

/-- Text without tokens on one line: spaces, tabs and carriage returns, then possibly a comment. -/
inductive Filler : List Char → Prop where
  | nil : Filler []
  | blank {char : Char} {rest : List Char} (listed : char ∈ [' ', '\t', '\r'])
      (more : Filler rest) : Filler (char :: rest)
  | comment {words : List Char} (oneLine : '\n' ∉ words) : Filler ('%' :: '%' :: words)

namespace Filler

theorem oneLine {text : List Char} (filler : Filler text) : '\n' ∉ text := by
  induction filler with
  | nil => exact List.not_mem_nil
  | blank listed _ inductionHypothesis =>
    refine List.not_mem_cons_of_ne_of_not_mem ?_ inductionHypothesis
    rintro rfl
    exact absurd listed (by decide)
  | comment oneLine => simpa using oneLine

theorem dropBlanks {text : List Char} (filler : Filler text) :
    Filler (text.dropWhile Piece.isGapChar) := by
  induction filler with
  | nil => exact .nil
  | blank listed _ inductionHypothesis =>
    rwa [List.dropWhile_cons, if_pos (Piece.mem_gapChars.mpr listed)]
  | comment oneLine => exact .comment oneLine

end Filler

/-! ### Filler has no tokens -/

namespace Piece

theorem cutComment_all {rest : List Char} (oneLine : '\n' ∉ rest) (first : Char) :
    cutComment first rest = (⟨.gap, first :: rest⟩, []) := by
  have other : ∀ char ∈ rest, (char != '\n') = true := by
    intro char member
    simpa using ne_of_mem_of_not_mem member oneLine
  rw [cutComment, List.takeWhile_eq_self_iff.mpr other, List.dropWhile_eq_nil_iff.mpr other]

theorem cut_blank {char : Char} (blank : isGapChar char) (rest : List Char) :
    cut char rest = cutGap char rest := by
  have different : char ≠ '%' ∧ char ≠ '\n' := by
    refine ⟨?_, ?_⟩ <;> rintro rfl <;> exact absurd blank (by decide)
  rw [cut, if_neg (fun both => different.1 both.1), if_neg different.2, if_pos blank]

/-- Filler starts with a gap, and filler follows. -/
theorem cut_filler {char : Char} {rest : List Char} (filler : Filler (char :: rest)) :
    (cut char rest).1.role = .gap ∧ Filler (cut char rest).2 := by
  cases filler with
  | blank listed more =>
    rw [cut_blank (mem_gapChars.mpr listed)]
    exact ⟨rfl, more.dropBlanks⟩
  | @comment words oneLine =>
    have whole : '\n' ∉ '%' :: words := by simpa using oneLine
    rw [cut, if_pos ⟨rfl, rfl⟩, cutComment_all whole]
    exact ⟨rfl, .nil⟩

end Piece

/-- A space in front of something else is a gap by itself. -/
theorem pieces_space {text : List Char} (first : ∀ char ∈ text.head?, ¬ Piece.isGapChar char) :
    pieces (' ' :: text) = ⟨.gap, [' ']⟩ :: pieces text := by
  rw [pieces, Piece.cut_blank rfl, Piece.cutGap]
  cases text with
  | nil => rfl
  | cons char rest =>
    have other : ¬ Piece.isGapChar char := first char rfl
    rw [List.takeWhile_cons_of_neg other, List.dropWhile_cons_of_neg other]

section Reading

/-- What is read off pieces, but nothing off gaps. -/
def SkipsGaps {α : Type} (read? : Position → Piece → Option α) : Prop :=
  ∀ position piece, piece.role = .gap → read? position piece = none

theorem Piece.token?_skipsGaps : SkipsGaps Piece.token? := by
  intro position piece gap
  rw [token?, gap]

theorem Piece.error?_skipsGaps : SkipsGaps Piece.error? := by
  intro position piece gap
  rw [error?, gap]

variable {α : Type} {read? : Position → Piece → Option α} (skips : SkipsGaps read?)

include skips

theorem placed_filler {text : List Char} (filler : Filler text) (position : Position) :
    placed read? position (pieces text) = [] := by
  fun_induction pieces text generalizing position with
  | case1 => rfl
  | case2 char rest found inductionHypothesis =>
    obtain ⟨gap, behind⟩ := Piece.cut_filler filler
    rw [placed_cons, skips _ _ gap, inductionHypothesis behind]
    rfl

end Reading

/-! ### A space ends every token -/

/-- The body of a string that is closed does not depend on what follows the quote. -/
theorem Escape.body_append_of_closed {text more : List Char} (closed : (body text).2 = '"' :: more)
    (tail : List Char) : body (text ++ tail) = ((body text).1, '"' :: more ++ tail) := by
  fun_induction body text with
  | case1 rest => cases closed
  | case2 letter rest other taken after split inductionHypothesis =>
    rw [split] at inductionHypothesis
    simp [body, other, inductionHypothesis closed]
  | case3 char rest different plain taken after split inductionHypothesis =>
    rw [split] at inductionHypothesis
    rw [List.cons_append, body_plain plain, inductionHypothesis closed]
  | case4 char rest different stops =>
    obtain ⟨rfl, rfl⟩ := List.cons.inj closed
    exact body_stop stops fun _ _ opening => absurd opening (by decide)
  | case5 => cases closed

namespace Piece

section Tokens

variable {kind : TokenKind} {value : Option Value} {char : Char} {rest : List Char}

theorem cutString_append (token : (cutString char rest).1.role = .token kind value)
    (tail : List Char) :
    cutString char (rest ++ tail) = ((cutString char rest).1, (cutString char rest).2 ++ tail) := by
  unfold cutString at token ⊢
  dsimp only at token ⊢
  split at token
  · rename_i more closed
    rw [Escape.body_append_of_closed closed]
    rfl
  · cases token

theorem cutCharacter_closed {quoted : Char} (other : quoted ≠ '\n') (char : Char)
    (rest : List Char) :
    cutCharacter char (quoted :: '\'' :: rest) =
      (literal .charLiteral (.text (String.ofList [quoted])) [char, quoted, '\''], rest) := by
  simp [cutCharacter, other]

/-- A single quote starts a token only in front of a character and another one. -/
theorem exists_of_cutCharacter (token : (cutCharacter char rest).1.role = .token kind value) :
    ∃ quoted more, quoted ≠ '\n' ∧ rest = quoted :: '\'' :: more := by
  unfold cutCharacter at token
  dsimp only at token
  split at token
  · split at token
    · cases token
    · rename_i other
      split at token
      · exact ⟨_, _, other, rfl⟩
      · cases token
  · cases token

theorem cutCharacter_append (token : (cutCharacter char rest).1.role = .token kind value)
    (tail : List Char) :
    cutCharacter char (rest ++ tail) =
      ((cutCharacter char rest).1, (cutCharacter char rest).2 ++ tail) := by
  obtain ⟨quoted, more, other, rfl⟩ := exists_of_cutCharacter token
  rw [List.cons_append, List.cons_append, cutCharacter_closed other, cutCharacter_closed other]

theorem cutEscape_closed {letter : Char} (other : letter ≠ '\n') (char : Char) (rest : List Char) :
    cutEscape char (letter :: ']' :: rest) =
      (literal .stringLiteral (.text (String.ofList (Escape.decode [char, letter, ']'])))
        [char, letter, ']'], rest) := by
  simp [cutEscape, other]

/-- A bracket starts a token only in front of a character and a closing bracket. -/
theorem exists_of_cutEscape (token : (cutEscape char rest).1.role = .token kind value) :
    ∃ letter more, letter ≠ '\n' ∧ rest = letter :: ']' :: more := by
  unfold cutEscape at token
  split at token
  · split at token
    · cases token
    · rename_i other
      split at token
      · exact ⟨_, _, other, rfl⟩
      · cases token
  · cases token

theorem cutEscape_append (token : (cutEscape char rest).1.role = .token kind value)
    (tail : List Char) :
    cutEscape char (rest ++ tail) = ((cutEscape char rest).1, (cutEscape char rest).2 ++ tail) := by
  obtain ⟨letter, more, other, rfl⟩ := exists_of_cutEscape token
  rw [List.cons_append, List.cons_append, cutEscape_closed other, cutEscape_closed other]

/-- A character that no token in front of it can take in. -/
structure EndsTokens (stop : Char) : Prop where
  noDigit : Text.isDigit stop = false
  noPoint : stop ≠ '.'
  noLetter : continuesWord stop = false
  noPercent : stop ≠ '%'
  /-- It is the second character of no operator. -/
  noSecond : stop ∉ ['=', '>']

theorem EndsTokens.pairKind?_eq_none {stop : Char} (ends : EndsTokens stop) (first : Char) :
    pairKind? first stop = none := by
  have other := ends.noSecond
  unfold pairKind?
  split <;> simp_all

/-- A token ends at such a character as it ends at the end of the text. -/
theorem cut_append_stop {stop : Char} (ends : EndsTokens stop)
    (token : (cut char rest).1.role = .token kind value) (tail : List Char) :
    cut char (rest ++ stop :: tail) = ((cut char rest).1, (cut char rest).2 ++ stop :: tail) := by
  have second : (rest ++ stop :: tail).head? = some '%' ↔ rest.head? = some '%' := by
    cases rest <;> simp [ends.noPercent]
  revert token
  unfold cut
  simp only [second]
  split
  · exact nofun
  split
  · exact fun _ => rfl
  split
  · exact nofun
  split
  · exact fun _ => cutNumber_stopsAt ends.noDigit ends.noPoint char rest tail
  split
  · exact fun token => cutString_append token _
  split
  · exact fun token => cutCharacter_append token _
  split
  · exact fun token => cutEscape_append token _
  split
  · exact fun _ => cutWord_stopsAt ends.noLetter char rest tail
  · exact fun _ => cutOperator_stopsAt ends.pairKind?_eq_none char rest tail

theorem endsTokens_space : EndsTokens ' ' :=
  ⟨by decide, by decide, rfl, by decide, by decide⟩

theorem cut_append_space (token : (cut char rest).1.role = .token kind value) (tail : List Char) :
    cut char (rest ++ ' ' :: tail) = ((cut char rest).1, (cut char rest).2 ++ ' ' :: tail) :=
  cut_append_stop endsTokens_space token tail

end Tokens

/-- Gaps are blanks and comments. -/
theorem cut_gap_cases {char : Char} {rest : List Char} (gap : (cut char rest).1.role = .gap) :
    isGapChar char ∨ ∃ words, char = '%' ∧ rest = '%' :: words := by
  have proper := cut_proper char rest
  obtain ⟨tail, text, whole⟩ := cut_faithful char rest
  unfold Proper at proper
  rw [gap, text] at proper
  rcases proper with ⟨blank, _⟩ | ⟨opened, _⟩
  · exact .inl (mem_gapChars.mpr (blank char List.mem_cons_self))
  · obtain ⟨words, opened⟩ := opened
    obtain ⟨rfl, rfl⟩ := List.cons.inj opened
    exact .inr ⟨_, rfl, whole.symm⟩

theorem cutGap_append {rest tail : List Char} (more : rest.dropWhile isGapChar ≠ [])
    (char : Char) :
    cutGap char (rest ++ tail) = ((cutGap char rest).1, (cutGap char rest).2 ++ tail) := by
  have short : (rest.takeWhile isGapChar).length ≠ rest.length := by
    intro same
    have all := List.takeWhile_append_dropWhile (p := isGapChar) (l := rest)
    have lengths := congrArg List.length all
    rw [List.length_append, same] at lengths
    exact more (List.length_eq_zero_iff.mp (by omega))
  rw [cutGap, cutGap, List.takeWhile_append, if_neg short, List.dropWhile_append,
    if_neg (by simpa using more)]

/-- A gap takes in the filler behind it, unless something else stands between. -/
theorem cut_append_filler {char : Char} {rest filler : List Char}
    (gap : (cut char rest).1.role = .gap) (oneLine : '\n' ∉ rest)
    (spaced : Filler (' ' :: filler)) :
    cut char (rest ++ ' ' :: filler) =
        ((cut char rest).1, (cut char rest).2 ++ ' ' :: filler) ∨
      (cut char rest).2 = [] ∧ (cut char (rest ++ ' ' :: filler)).1.role = .gap ∧
        Filler (cut char (rest ++ ' ' :: filler)).2 := by
  rcases cut_gap_cases gap with blank | ⟨words, rfl, rfl⟩
  · rw [cut_blank blank, cut_blank blank]
    by_cases more : rest.dropWhile isGapChar = []
    · refine .inr ⟨more, rfl, ?_⟩
      have behind : (cutGap char (rest ++ ' ' :: filler)).2 =
          (' ' :: filler).dropWhile isGapChar := by
        rw [cutGap, List.dropWhile_append, if_pos (by simp [more])]
      rw [behind]
      exact spaced.dropBlanks
    · exact .inl (cutGap_append more char)
  · have whole : '\n' ∉ '%' :: words ++ ' ' :: filler := List.not_mem_append oneLine spaced.oneLine
    refine .inr ?_
    rw [cut, if_pos ⟨rfl, rfl⟩, cutComment_all oneLine, cut, if_pos ⟨rfl, rfl⟩,
      cutComment_all whole]
    exact ⟨rfl, rfl, .nil⟩

end Piece

theorem newline_not_mem_behind {char : Char} {rest : List Char} (oneLine : '\n' ∉ char :: rest) :
    '\n' ∉ (Piece.cut char rest).2 := by
  rw [← Piece.cut_append char rest] at oneLine
  exact fun member => oneLine (List.mem_append_right _ member)

/-- Filler behind a space adds nothing to a line without errors. -/
theorem placed_append_filler {α : Type} {read? : Position → Piece → Option α}
    (skips : SkipsGaps read?) {line filler : List Char} (oneLine : '\n' ∉ line)
    (spaced : Filler (' ' :: filler)) {position : Position}
    (clean : placed Piece.error? position (pieces line) = []) :
    placed read? position (pieces (line ++ ' ' :: filler)) =
      placed read? position (pieces line) := by
  fun_induction pieces line generalizing position with
  | case1 => exact placed_filler skips spaced position
  | case2 char rest found inductionHypothesis =>
    rw [placed_cons] at clean
    obtain ⟨accepted, others⟩ := List.append_eq_nil_iff.mp clean
    have further := inductionHypothesis (newline_not_mem_behind oneLine) others
    rw [List.cons_append, pieces, placed_cons, placed_cons]
    cases role : (Piece.cut char rest).1.role with
    | token kind value =>
      rw [Piece.cut_append_space role]
      exact congrArg _ further
    | gap =>
      have inside : '\n' ∉ rest := fun member => oneLine (List.mem_cons_of_mem _ member)
      rcases Piece.cut_append_filler role inside spaced with same | ⟨none, taken, behind⟩
      · rw [same]
        exact congrArg _ further
      · -- The rest of the line is one gap, with the filler or without it.
        have empty : found.2 = [] := none
        rw [skips _ _ taken, skips _ _ role, placed_filler skips behind, empty, pieces]
        rfl
    | rejected message shown => simp [Piece.error?, found, role] at accepted

/-! ### Padded lines -/

/-- A line of a source text, with the filler that is put above and behind it. -/
structure PaddedLine where
  above : List (List Char)
  text : List Char
  behind : List Char
  oneLine : '\n' ∉ text
  blankAbove : ∀ line ∈ above, Filler line
  /-- What is put behind the line starts with a space. -/
  blankBehind : behind = [] ∨ ∃ filler, behind = ' ' :: filler ∧ Filler filler

namespace PaddedLine

/-- The line with what is put above and behind it. -/
def whole (line : PaddedLine) : List Char :=
  line.above.flatMap (· ++ ['\n']) ++ line.text ++ line.behind

/-- Lines with a newline between each two. -/
def joined (shown : PaddedLine → List Char) : List PaddedLine → List Char
  | [] => []
  | [last] => shown last
  | line :: rest => shown line ++ '\n' :: joined shown rest

/-- The source text of some lines. -/
def source (lines : List PaddedLine) : String :=
  String.ofList (joined text lines)

/-- The source text of some lines with all that is put between them. -/
def padded (lines : List PaddedLine) : String :=
  String.ofList (joined whole lines)

/-- The line of the padded text on which a line of the source text stands. -/
def movedLine (lines : List PaddedLine) (line : Nat) : Nat :=
  line + ((lines.take line).map fun padded => padded.above.length).sum

end PaddedLine

/-! ### The tokens of padded lines -/

/-- The token on another line, at the same column. -/
def Token.moveLine (move : Nat → Nat) (token : Token) : Token :=
  { token with position := ⟨move token.position.line, token.position.column⟩ }

/-- Tokens that stand for each other on the lines where they are moved. No token breaks its line,
unless it is a newline. -/
def Pairing.moving (move : Nat → Nat) : Pairing :=
  ⟨Token.moveLine move, fun token => token.kind ≠ .newline → OneLine token.lexeme⟩

theorem Position.line_after {text : List Char} (oneLine : '\n' ∉ text) (position : Position) :
    (position.after text).line = position.line := by
  induction text generalizing position with
  | nil => rfl
  | cons char rest inductionHypothesis =>
    obtain ⟨other, inside⟩ := not_or.mp (List.mem_cons.not.mp oneLine)
    rw [after_cons, inductionHypothesis inside, next, if_neg (Ne.symm other)]

/-- The tokens of a line neither break nor end it, and all stand on it. -/
theorem mem_placed_line {text : List Char} (oneLine : '\n' ∉ text) (position : Position) :
    ∀ token ∈ placed Piece.token? position (pieces text),
      OneLine token.lexeme ∧ ¬ token.kind.EndsLine ∧ token.position.line = position.line := by
  fun_induction pieces text generalizing position with
  | case1 => exact List.forall_mem_nil _
  | case2 char rest found inductionHypothesis =>
    have cutOff : '\n' ∉ found.1.text := by
      rw [← Piece.cut_append char rest] at oneLine
      exact fun member => oneLine (List.mem_append_left _ member)
    have others := inductionHypothesis (newline_not_mem_behind oneLine)
      (position.after found.1.text)
    rw [Position.line_after cutOff] at others
    rw [placed_cons]
    refine List.forall_mem_append.mpr ⟨fun token member => ?_, others⟩
    obtain ⟨kind, value, role, rfl⟩ := Piece.exists_role_of_token? (Option.mem_toList.mp member)
    have proper := Piece.cut_proper char rest
    unfold Piece.Proper at proper
    rw [role] at proper
    rcases proper with ⟨_, _, newline⟩ | ⟨notNewline, notEnd, _⟩
    · exact absurd (newline ▸ List.mem_singleton_self '\n') cutOff
    · exact ⟨oneLine_ofList.mpr cutOff, not_or.mpr ⟨notNewline, notEnd⟩, rfl⟩

section Lexing

variable (text rest : List Char)

/-- The tokens of a line and those of the lines below it. -/
theorem lexChars_append_newline {text : List Char} (oneLine : '\n' ∉ text) :
    lexChars (text ++ '\n' :: rest) =
      ⟨placed Piece.token? .start (pieces text) ++ ⟨.newline, "\n", none, .behind text⟩ ::
          (lexChars rest).tokens.map (Token.moveDown 1),
        placed Piece.error? .start (pieces text) ++
          (lexChars rest).errors.map (LexicalError.moveDown 1)⟩ := by
  have single : lineCount (String.ofList text) = 1 := by
    simp [lineCount, List.count_eq_zero_of_not_mem oneLine]
  have ended := behind_append_newline (String.ofList text) (String.ofList rest)
  have tokens := placed_append_newline (String.ofList text) (String.ofList rest)
    (Piece.token?_moveDown _)
  have errors := placed_append_newline (String.ofList text) (String.ofList rest)
    (Piece.error?_moveDown _)
  simp only [single, String.toList_ofList] at ended tokens errors
  rw [lexChars_eq, lexChars_eq, ended, tokens, errors]
  simp only [List.map_append, List.append_assoc]
  rfl

end Lexing

/-! ### Matching tokens -/

/-- A token moved along with its text keeps its kind and its value. -/
def Token.Keeps (move : Token → Token) : Prop :=
  ∀ token, (move token).kind = token.kind ∧ (move token).literal = token.literal

theorem dropBlank_map {move : Token → Token} (keeps : Token.Keeps move) (tokens : List Token) :
    dropBlank (tokens.map move) = (dropBlank tokens).map move := by
  induction tokens with
  | nil => rfl
  | cons token rest inductionHypothesis =>
    by_cases newline : token.kind = .newline
    · rw [List.map_cons, dropBlank_newline ((keeps token).1.trans newline),
        dropBlank_newline newline, inductionHypothesis]
    · rw [List.map_cons, dropBlank_other ((keeps token).1 ▸ newline), dropBlank_other newline,
        List.map_cons]

namespace Matching

variable {pairing moved : Pairing} {one two : List Token} {move mirror : Token → Token}

/-- Tokens that match still match when both texts are moved. -/
theorem map (keeps : Token.Keeps move) (mirrorKeeps : Token.Keeps mirror)
    (fine : ∀ token, pairing.fine token → moved.fine (move token))
    (replaced : ∀ token, moved.replace (move token) = mirror (pairing.replace token))
    (matching : Matching pairing one two) : Matching moved (one.map move) (two.map mirror) := by
  have moves {first second : Token} (pair : first.Matches pairing second) :
      (move first).Matches moved (mirror second) := by
    refine ⟨fine _ pair.fine, ?_, ?_, fun inLine => ?_⟩
    · rw [(mirrorKeeps second).1, (keeps first).1, pair.kind]
    · rw [(mirrorKeeps second).2, (keeps first).2, pair.literal]
    · rw [(keeps first).1] at inLine
      rw [pair.replaced inLine, replaced]
  induction matching with
  | last pair ends => exact .last (moves pair) ((keeps _).1.trans ends)
  | inside pair inLine _ inductionHypothesis =>
    exact .inside (moves pair) (by rwa [(keeps _).1]) inductionHypothesis
  | newline pair breaks _ inductionHypothesis =>
    refine .newline (moves pair) ((keeps _).1.trans breaks) ?_
    rwa [dropBlank_map keeps, dropBlank_map mirrorKeeps]

/-- The tokens of a line in front of lists that match. -/
theorem append_line {line : List Token} (keeps : Token.Keeps pairing.replace)
    (fine : ∀ token ∈ line, pairing.fine token) (inLine : ∀ token ∈ line, ¬ token.kind.EndsLine)
    (behind : Matching pairing one two) :
    Matching pairing (line ++ one) (line.map pairing.replace ++ two) := by
  induction line with
  | nil => exact behind
  | cons token rest inductionHypothesis =>
    obtain ⟨tokenFine, restFine⟩ := List.forall_mem_cons.mp fine
    obtain ⟨tokenInside, restInside⟩ := List.forall_mem_cons.mp inLine
    have pair : token.Matches pairing (pairing.replace token) :=
      ⟨tokenFine, (keeps token).1, (keeps token).2, fun _ => rfl⟩
    exact .inside pair tokenInside (inductionHypothesis restFine restInside)

end Matching

namespace PaddedLine

theorem keeps_moveLine (move : Nat → Nat) : Token.Keeps (Token.moveLine move) :=
  fun _ => ⟨rfl, rfl⟩

theorem keeps_moveDown (lines : Nat) : Token.Keeps (Token.moveDown lines) :=
  fun _ => ⟨rfl, rfl⟩

/-- Lines of filler above a text move its tokens down. -/
theorem lexChars_above {above : List (List Char)} (blank : ∀ line ∈ above, Filler line)
    (rest : List Char) :
    dropBlank (lexChars (above.flatMap (· ++ ['\n']) ++ rest)).tokens =
        (dropBlank (lexChars rest).tokens).map (Token.moveDown above.length) ∧
      (lexChars (above.flatMap (· ++ ['\n']) ++ rest)).errors =
        (lexChars rest).errors.map (LexicalError.moveDown above.length) := by
  induction above with
  | nil => exact ⟨(List.map_id _).symm, (List.map_id _).symm⟩
  | cons line others inductionHypothesis =>
    obtain ⟨filler, further⟩ := List.forall_mem_cons.mp blank
    obtain ⟨tokens, errors⟩ := inductionHypothesis further
    rw [List.flatMap_cons, List.append_assoc, List.append_assoc, List.singleton_append,
      lexChars_append_newline _ filler.oneLine, placed_filler Piece.token?_skipsGaps filler,
      placed_filler Piece.error?_skipsGaps filler, List.nil_append, List.nil_append]
    refine ⟨?_, ?_⟩
    · rw [dropBlank_newline rfl, dropBlank_map (keeps_moveDown 1), tokens, List.map_map]
      rfl
    · rw [errors, List.map_map]
      rfl

theorem joined_cons (shown : PaddedLine → List Char) (line next : PaddedLine)
    (rest : List PaddedLine) :
    joined shown (line :: next :: rest) = shown line ++ '\n' :: joined shown (next :: rest) :=
  rfl

theorem newline_not_mem_content (line : PaddedLine) : '\n' ∉ line.text ++ line.behind := by
  refine List.not_mem_append line.oneLine ?_
  rcases line.blankBehind with none | ⟨filler, some, blank⟩
  · simp [none]
  · rw [some]
    exact (Filler.blank (by decide) blank).oneLine

/-- What is put behind a line without errors adds nothing to it. -/
theorem placed_content {α : Type} {read? : Position → Piece → Option α}
    (skips : SkipsGaps read?) {line : PaddedLine}
    (clean : placed Piece.error? .start (pieces line.text) = []) :
    placed read? .start (pieces (line.text ++ line.behind)) =
      placed read? .start (pieces line.text) := by
  rcases line.blankBehind with none | ⟨filler, some, blank⟩
  · rw [none, List.append_nil]
  · rw [some]
    exact placed_append_filler skips line.oneLine (.blank (by decide) blank) clean

/-- The tokens of the first line are moved down by what is put above it. -/
theorem map_moveDown_line (line : PaddedLine) (rest : List PaddedLine) :
    (placed Piece.token? .start (pieces line.text)).map (Token.moveDown line.above.length) =
      (placed Piece.token? .start (pieces line.text)).map
        (Token.moveLine (movedLine (line :: rest))) := by
  refine List.map_congr_left fun token member => ?_
  have first := (mem_placed_line line.oneLine .start token member).2.2
  simp [Token.moveDown, Token.moveLine, Position.moveDown, movedLine, first, Position.start]

theorem movedLine_succ (line : PaddedLine) (rest : List PaddedLine) (number : Nat) :
    movedLine (line :: rest) (number + 1) = movedLine rest number + 1 + line.above.length := by
  simp only [movedLine, List.take_succ_cons, List.map_cons, List.sum_cons]
  omega

/-- The first line of a text, moved down, in front of lists that match. -/
theorem matching_line (line : PaddedLine) (rest : List PaddedLine) {below others : List Token}
    (matching : Matching (.moving (movedLine (line :: rest))) below
      (others.map (Token.moveDown line.above.length))) :
    Matching (.moving (movedLine (line :: rest)))
      (placed Piece.token? .start (pieces line.text) ++ below)
      ((placed Piece.token? .start (pieces line.text) ++ others).map
        (Token.moveDown line.above.length)) := by
  rw [List.map_append, map_moveDown_line line rest]
  have proper := mem_placed_line line.oneLine .start
  exact .append_line (keeps_moveLine _) (fun token member _ => (proper token member).1)
    (fun token member => (proper token member).2.1) matching

/-- Padding adds no error to a text without errors, and its tokens match those of the text. -/
theorem lexChars_padded (lines : List PaddedLine)
    (clean : (lexChars (joined text lines)).errors = []) :
    (lexChars (joined whole lines)).errors = [] ∧
      Matching (.moving (movedLine lines)) (dropBlank (lexChars (joined text lines)).tokens)
        (dropBlank (lexChars (joined whole lines)).tokens) := by
  have ends (move : Nat → Nat) (one two : Position) :
      (Token.endAt one).Matches (.moving move) (Token.endAt two) :=
    ⟨fun _ => List.not_mem_nil, rfl, rfl, fun inLine => absurd (.inr rfl) inLine⟩
  induction lines with
  | nil =>
    rw [joined, joined, lexChars_eq, pieces]
    exact ⟨rfl, .last (ends _ _ _) rfl⟩
  -- By `lexChars_above` the filling above only moves the line down; the filling behind it is a gap.
  | cons line rest inductionHypothesis =>
    have skipped := lexChars_above line.blankAbove
    cases rest with
    | nil =>
      have own : placed Piece.error? .start (pieces line.text) = [] := by
        rwa [joined, lexChars_eq] at clean
      rw [joined, joined, whole, List.append_assoc, (skipped _).1, (skipped _).2]
      rw [← dropBlank_map (keeps_moveDown _), lexChars_eq (line.text ++ line.behind),
        placed_content Piece.token?_skipsGaps own, placed_content Piece.error?_skipsGaps own,
        lexChars_eq, own]
      refine ⟨rfl, Matching.dropBlank (matching_line line [] ?_)⟩
      exact .last (ends _ _ _) rfl
    | cons next others =>
      -- The clean text splits into the line and what is below, and both of them are clean.
      rw [joined_cons, lexChars_append_newline _ line.oneLine] at clean
      obtain ⟨own, below⟩ := List.append_eq_nil_iff.mp clean
      obtain ⟨paddedClean, matching⟩ := inductionHypothesis (List.map_eq_nil_iff.mp below)
      have both : Token.Keeps (Token.moveDown line.above.length ∘ Token.moveDown 1) :=
        fun _ => ⟨rfl, rfl⟩
      -- Below, the padded text is further down by this line and by the filling above it.
      have moved : Matching (.moving (movedLine (line :: next :: others)))
          ((dropBlank (lexChars (joined text (next :: others))).tokens).map (Token.moveDown 1))
          ((dropBlank (lexChars (joined whole (next :: others))).tokens).map
            (Token.moveDown line.above.length ∘ Token.moveDown 1)) := by
        refine matching.map (keeps_moveDown _) both (fun _ fine => fine) fun token => ?_
        have number := movedLine_succ line (next :: others) token.position.line
        simp only [Pairing.moving, Token.moveLine, Token.moveDown, Position.moveDown, number,
          Function.comp_apply]
      rw [joined_cons, joined_cons, whole, List.append_assoc, List.append_assoc,
        ← List.append_assoc line.text, (skipped _).1, (skipped _).2,
        ← dropBlank_map (keeps_moveDown _), lexChars_append_newline _ line.oneLine,
        lexChars_append_newline _ (newline_not_mem_content line),
        placed_content Piece.token?_skipsGaps own, placed_content Piece.error?_skipsGaps own, own,
        paddedClean]
      refine ⟨rfl, Matching.dropBlank (matching_line line (next :: others) ?_)⟩
      refine .newline ⟨fun other => absurd rfl other, rfl, rfl, ?_⟩ rfl ?_
      · exact fun inLine => absurd (.inl rfl) inLine
      rwa [dropBlank_map (keeps_moveDown 1), List.map_map, dropBlank_map both]

end PaddedLine

end LineScript
