/-
Module: LineScript.Piece
Purpose: A source text cut into consecutive pieces.
Trusted boundary: a literal of a double denotes the double nearest to it, which is left to
  Float.ofScientific.
Main exports: PieceRole, Piece, cut, pieces, cut_faithful, flatMap_text_pieces
-/
import LineScript.Escape
import LineScript.Text.Basic
import LineScript.Token

/-!
A source text is cut from left to right into pieces, none of them empty: tokens, gaps and rejected
fragments. The first character of a piece, and for a comment or a two-character operator the one
after it, decides which rule cuts it. Malformed text never stops the cutting: the fragment is
rejected with a message and the next piece starts right behind it.
-/

namespace LineScript

/-- What a piece of source text is. -/
inductive PieceRole where
  | token (kind : TokenKind) (literal : Option Value)
  /-- Blanks between tokens, or a comment. -/
  | gap
  /-- A fragment that starts no token, with the text that its report shows. -/
  | rejected (message : String) (shown : List Char)
  deriving DecidableEq, Repr, Inhabited

/-- A piece of source text. -/
structure Piece where
  role : PieceRole
  text : List Char
  deriving DecidableEq, Repr, Inhabited

namespace Piece

/-- A token without a value. -/
def plain (kind : TokenKind) (text : List Char) : Piece :=
  ⟨.token kind none, text⟩

/-- A token that denotes a value. -/
def literal (kind : TokenKind) (value : Value) (text : List Char) : Piece :=
  ⟨.token kind (some value), text⟩

/-- A rejected fragment that is shown whole. -/
def reject (message : String) (text : List Char) : Piece :=
  ⟨.rejected message text, text⟩

/-- A blank that separates tokens on a line. -/
def isGapChar (char : Char) : Bool :=
  char == ' ' || char == '\t' || char == '\r'

/-- The first character of a word. -/
def startsWord (char : Char) : Bool :=
  char.isAlpha || char == '_'

/-- A character inside a word. -/
def continuesWord (char : Char) : Bool :=
  char.isAlphanum || char == '_'

/-- A comment runs up to the end of its line. -/
def cutComment (first : Char) (rest : List Char) : Piece × List Char :=
  (⟨.gap, first :: rest.takeWhile (· != '\n')⟩, rest.dropWhile (· != '\n'))

/-- A gap is a run of blanks. -/
def cutGap (first : Char) (rest : List Char) : Piece × List Char :=
  (⟨.gap, first :: rest.takeWhile isGapChar⟩, rest.dropWhile isGapChar)

/-- How much of an integer literal with too many digits its report shows. -/
def shownDigits : Nat := 20

/-- An integer literal, rejected if it has too many digits. -/
def integer (digits : List Char) : Piece :=
  if digitLimit < digits.length then
    ⟨.rejected "Integer literal is too large" (digits.take shownDigits), digits⟩
  else literal .integerLiteral (.int (Text.digitsValue digits)) digits

/-- A literal of a double: whole digits, a point, and digits of the fraction. -/
def float (whole fraction : List Char) : Piece :=
  literal .floatLiteral
    (.float (Float.ofScientific (Text.digitsValue (whole ++ fraction)) true fraction.length))
    (whole ++ '.' :: fraction)

/-- A number has a fraction when a point and a digit follow its first run of digits. -/
def cutNumber (first : Char) (rest : List Char) : Piece × List Char :=
  let whole := first :: rest.takeWhile Text.isDigit
  match rest.dropWhile Text.isDigit with
  | '.' :: digit :: more =>
    if Text.isDigit digit then
      (float whole (digit :: more.takeWhile Text.isDigit), more.dropWhile Text.isDigit)
    else (integer whole, '.' :: digit :: more)
  | after => (integer whole, after)

/-- A string literal runs up to its closing quote. One that is not closed on its line, or holds a
broken escape sequence, is rejected up to there. -/
def cutString (quote : Char) (rest : List Char) : Piece × List Char :=
  let (body, after) := Escape.body rest
  match after with
  | '"' :: more =>
    (literal .stringLiteral (.text (String.ofList (Escape.decode body))) (quote :: body ++ ['"']),
      more)
  | _ =>
    let (broken, more) := Escape.broken after
    (reject (Escape.complaint (body ++ broken)) (quote :: body ++ broken), more)

/-- A character literal is any character but a newline between single quotes. -/
def cutCharacter (quote : Char) (rest : List Char) : Piece × List Char :=
  let message := "Unterminated character literal. Expected single quote"
  match rest with
  | char :: more =>
    if char = '\n' then (reject message [quote], char :: more)
    else
      match more with
      | '\'' :: after =>
        (literal .charLiteral (.text (String.ofList [char])) [quote, char, '\''], after)
      | _ => (reject message [quote, char], more)
  | [] => (reject message [quote], [])

/-- An escape sequence by itself is a string of one character. -/
def cutEscape (bracket : Char) (rest : List Char) : Piece × List Char :=
  match rest with
  | letter :: more =>
    if letter = '\n' then (reject "Unterminated escape sequence" [bracket], letter :: more)
    else
      match more with
      | ']' :: after =>
        (literal .stringLiteral (.text (String.ofList (Escape.decode [bracket, letter, ']'])))
          [bracket, letter, ']'], after)
      | _ => (reject "Expected ']' to close escape sequence" [bracket, letter], more)
  | [] => (reject "Unterminated escape sequence" [bracket], [])

/-- A word is a keyword or an identifier. -/
def cutWord (first : Char) (rest : List Char) : Piece × List Char :=
  let word := first :: rest.takeWhile continuesWord
  let kind := TokenKind.ofWord (String.ofList word)
  (⟨.token kind kind.wordLiteral?, word⟩, rest.dropWhile continuesWord)

/-- The operators of two characters. -/
def pairKind? : Char → Char → Option TokenKind
  | '=', '=' => some .equalEqual
  | '>', '=' => some .greaterEqual
  | '<', '=' => some .lessEqual
  | '<', '>' => some .notEqual
  | _, _ => none

/-- The operators and delimiters of one character. -/
def singleKind? : Char → Option TokenKind
  | '=' => some .equal
  | '>' => some .greater
  | '<' => some .less
  | '+' => some .plus
  | '-' => some .minus
  | '*' => some .star
  | '/' => some .slash
  | '%' => some .modulo
  | '&' => some .concat
  | '$' => some .dollar
  | '(' => some .leftParen
  | ')' => some .rightParen
  | ',' => some .comma
  | ':' => some .colon
  | _ => none

/-- A character that starts nothing else: an operator, a delimiter, or no part of the language. -/
def cutSingle (char : Char) (rest : List Char) : Piece × List Char :=
  match singleKind? char with
  | some kind => (plain kind [char], rest)
  | none => (reject "Unexpected character" [char], rest)

/-- An operator or a delimiter, the longer one first. -/
def cutOperator (char : Char) (rest : List Char) : Piece × List Char :=
  match rest with
  | second :: more =>
    match pairKind? char second with
    | some kind => (plain kind [char, second], more)
    | none => cutSingle char rest
  | [] => cutSingle char rest

/-- The first piece of the text `char :: rest`, and the text behind it. -/
def cut (char : Char) (rest : List Char) : Piece × List Char :=
  if char = '%' ∧ rest.head? = some '%' then cutComment char rest
  else if char = '\n' then (plain .newline [char], rest)
  else if isGapChar char then cutGap char rest
  else if Text.isDigit char then cutNumber char rest
  else if char = '"' then cutString char rest
  else if char = '\'' then cutCharacter char rest
  else if char = '[' then cutEscape char rest
  else if startsWord char then cutWord char rest
  else cutOperator char rest

/-! ### A piece and what follows it are the text they were cut from -/

/-- The body of a string literal and what is behind it are the text. -/
theorem body_append (text : List Char) :
    (Escape.body text).1 ++ (Escape.body text).2 = text := by
  fun_induction Escape.body text <;> simp_all

/-- The fragment at which a body breaks off and what is behind it are the text. -/
theorem broken_append (text : List Char) :
    (Escape.broken text).1 ++ (Escape.broken text).2 = text := by
  fun_cases Escape.broken text <;> simp_all

@[simp] theorem integer_text (digits : List Char) : (integer digits).text = digits := by
  unfold integer
  split <;> rfl

/-- What a rule of cutting keeps: the piece starts with the character that chose the rule, and
nothing is lost. -/
def Faithful (rule : Char → List Char → Piece × List Char) : Prop :=
  ∀ char rest, ∃ tail, (rule char rest).1.text = char :: tail ∧ tail ++ (rule char rest).2 = rest

theorem cutComment_faithful : Faithful cutComment := fun _ _ =>
  ⟨_, rfl, List.takeWhile_append_dropWhile⟩

/-- A run of blanks is cut off whole. -/
theorem cutGap_faithful : Faithful cutGap := fun _ _ =>
  ⟨_, rfl, List.takeWhile_append_dropWhile⟩

theorem cutWord_faithful : Faithful cutWord := fun _ _ =>
  ⟨_, rfl, List.takeWhile_append_dropWhile⟩

/-- A number is cut off with its fraction, or else in front of the point. -/
theorem cutNumber_faithful : Faithful cutNumber := by
  intro first rest
  have whole := List.takeWhile_append_dropWhile (p := Text.isDigit) (l := rest)
  unfold cutNumber
  split
  · rename_i digit more after
    split
    · refine ⟨rest.takeWhile Text.isDigit ++ '.' :: digit :: more.takeWhile Text.isDigit, ?_, ?_⟩
      · simp [float, literal]
      · rw [List.append_assoc, List.cons_append, List.cons_append,
          List.takeWhile_append_dropWhile, ← after, whole]
    · exact ⟨_, integer_text _, by rw [← after, whole]⟩
  · exact ⟨_, integer_text _, whole⟩

/-- A string literal is cut off with its closing quote, or else with the fragment that breaks it. -/
theorem cutString_faithful : Faithful cutString := by
  intro quote rest
  have whole := body_append rest
  have lost := broken_append (Escape.body rest).2
  unfold cutString
  simp only
  split
  · rename_i more after
    refine ⟨(Escape.body rest).1 ++ ['"'], rfl, ?_⟩
    rw [List.append_assoc, List.singleton_append, ← after, whole]
  · refine ⟨(Escape.body rest).1 ++ (Escape.broken (Escape.body rest).2).1, rfl, ?_⟩
    rw [List.append_assoc, lost, whole]

theorem cutCharacter_faithful : Faithful cutCharacter := by
  intro quote rest
  unfold cutCharacter
  simp only
  split
  · split
    · exact ⟨[], rfl, rfl⟩
    · split
      · exact ⟨_, rfl, rfl⟩
      · exact ⟨_, rfl, rfl⟩
  · exact ⟨[], rfl, rfl⟩

theorem cutEscape_faithful : Faithful cutEscape := by
  intro bracket rest
  unfold cutEscape
  split
  · split
    · exact ⟨[], rfl, rfl⟩
    · split
      · exact ⟨_, rfl, rfl⟩
      · exact ⟨_, rfl, rfl⟩
  · exact ⟨[], rfl, rfl⟩

theorem cutSingle_faithful : Faithful cutSingle := by
  intro char rest
  unfold cutSingle
  split
  · exact ⟨[], rfl, rfl⟩
  · exact ⟨[], rfl, rfl⟩

/-- An operator is cut off with its second character, if it has one. -/
theorem cutOperator_faithful : Faithful cutOperator := by
  intro char rest
  unfold cutOperator
  split
  · split
    · exact ⟨_, rfl, rfl⟩
    · exact cutSingle_faithful char _
  · exact cutSingle_faithful char _

/-- No rule loses a character, and every piece starts with the character that chose its rule. -/
theorem cut_faithful : Faithful cut := by
  intro char rest
  unfold cut
  split
  · exact cutComment_faithful char rest
  split
  · exact ⟨[], rfl, rfl⟩
  split
  · exact cutGap_faithful char rest
  split
  · exact cutNumber_faithful char rest
  split
  · exact cutString_faithful char rest
  split
  · exact cutCharacter_faithful char rest
  split
  · exact cutEscape_faithful char rest
  split
  · exact cutWord_faithful char rest
  · exact cutOperator_faithful char rest

/-- A piece and what is behind it are the text they were cut from. -/
theorem cut_append (char : Char) (rest : List Char) :
    (cut char rest).1.text ++ (cut char rest).2 = char :: rest := by
  obtain ⟨tail, text, whole⟩ := cut_faithful char rest
  rw [text, List.cons_append, whole]

/-- What follows a piece is shorter than the text it was cut from. -/
theorem cut_length (char : Char) (rest : List Char) :
    (cut char rest).2.length < (char :: rest).length := by
  obtain ⟨tail, _, whole⟩ := cut_faithful char rest
  have total := congrArg List.length whole
  rw [List.length_append] at total
  rw [List.length_cons]
  omega

end Piece

/-- The pieces of a source text, from left to right. -/
def pieces : List Char → List Piece
  | [] => []
  | char :: rest =>
    let found := Piece.cut char rest
    found.1 :: pieces found.2
termination_by text => text.length
decreasing_by exact Piece.cut_length char rest

/-- The pieces of a text are the whole text, in order and without overlap. -/
theorem flatMap_text_pieces (source : List Char) : (pieces source).flatMap Piece.text = source := by
  fun_induction pieces source with
  | case1 => rfl
  | case2 char rest found inductionHypothesis =>
    rw [List.flatMap_cons, inductionHypothesis]
    exact Piece.cut_append char rest

end LineScript
