/-
Module: LineScript.Lexed
Purpose: The tokens and the lexical errors of a source text.
Trusted boundary: none
Main exports: LexicalError, Lexed, LineCount, locate, lexChars, lex
-/
import LineScript.Piece

/-!
Lexing places the pieces of a source text one after the other. The tokens among them, followed by
one token for the end of the text, go to the parser; the rejected fragments are lexical errors.

Positions come from counters that lexing keeps as it goes: how much it has read, which line it is
on, and where that line starts. Only the token of a newline starts a line. That the counters give
the place of every piece in the text is proved and not assumed (`locate_pieces`).
-/

namespace LineScript

/-- A rejected fragment of a source text. -/
structure LexicalError where
  message : String
  /-- The text that the report shows. -/
  shown : String
  position : Position
  deriving DecidableEq, Repr, Inhabited

/-- What lexing gives. -/
structure Lexed where
  tokens : List Token
  errors : List LexicalError
  deriving DecidableEq, Repr, Inhabited

/-- The counters of lexing. -/
structure LineCount where
  /-- How many characters have been read. -/
  read : Nat
  /-- The line that lexing is on. -/
  line : Nat
  /-- How many characters were read before that line. -/
  lineStart : Nat
  started : lineStart ≤ read
  deriving DecidableEq, Repr

namespace LineCount

/-- The counters in front of a text. -/
def start : LineCount := ⟨0, 1, 0, Nat.le_refl 0⟩

instance : Inhabited LineCount := ⟨start⟩

/-- The position of the next character. -/
def position (count : LineCount) : Position :=
  ⟨count.line, count.read - count.lineStart + 1⟩

/-- The counters behind a piece. -/
def past (count : LineCount) (piece : Piece) : LineCount :=
  match piece.role with
  | .token .newline _ =>
    ⟨count.read + piece.text.length, count.line + 1, count.read + piece.text.length,
      Nat.le_refl _⟩
  | _ =>
    ⟨count.read + piece.text.length, count.line, count.lineStart,
      Nat.le_add_right_of_le count.started⟩

end LineCount

/-- Consecutive pieces with their positions, and the counters behind the last of them. -/
def locate : LineCount → List Piece → List (Position × Piece) × LineCount
  | count, [] => ([], count)
  | count, piece :: rest =>
    let (located, reached) := locate (count.past piece) rest
    ((count.position, piece) :: located, reached)

/-- The token that a piece at a position is. -/
def Piece.token? (position : Position) (piece : Piece) : Option Token :=
  match piece.role with
  | .token kind literal => some ⟨kind, String.ofList piece.text, literal, position⟩
  | _ => none

/-- The lexical error that a piece at a position is. -/
def Piece.error? (position : Position) (piece : Piece) : Option LexicalError :=
  match piece.role with
  | .rejected message shown => some ⟨message, String.ofList shown, position⟩
  | _ => none

/-- The tokens and lexical errors of a text. -/
def lexChars (source : List Char) : Lexed :=
  let (located, reached) := locate .start (pieces source)
  { tokens := located.filterMap (fun (position, piece) => piece.token? position) ++
      [Token.endAt reached.position]
    errors := located.filterMap fun (position, piece) => piece.error? position }

/-- The tokens and lexical errors of a source text. -/
def lex (source : String) : Lexed :=
  lexChars source.toList

end LineScript
