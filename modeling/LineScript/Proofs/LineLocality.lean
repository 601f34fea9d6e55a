/-
Module: LineScript.Proofs.LineLocality
Purpose: Each line of a source text is lexed by itself.
Trusted boundary: none
Main exports: Position.moveDown, LineLocal, cut_lineLocal, placed_append_newline, lex_append_newline
-/
import LineScript.Proofs.SourceTiling

/-!
Nothing on one line of a source text changes how another is lexed. Every rule of cutting treats a
newline as it treats the end of the text, so a text that is continued behind a newline is cut as it
was, and cutting starts afresh behind the newline. What is cut there keeps its columns and moves
down by the lines above it.
-/

namespace LineScript

/-! ### Moving down -/

/-- The same place on a line further down. -/
def Position.moveDown (lines : Nat) (position : Position) : Position :=
  ⟨position.line + lines, position.column⟩

/-- The same token on a line further down. -/
def Token.moveDown (lines : Nat) (token : Token) : Token :=
  { token with position := token.position.moveDown lines }

/-- The same error on a line further down. -/
def LexicalError.moveDown (lines : Nat) (error : LexicalError) : LexicalError :=
  { error with position := error.position.moveDown lines }

theorem Position.next_moveDown (lines : Nat) (position : Position) (char : Char) :
    (position.moveDown lines).next char = (position.next char).moveDown lines := by
  unfold next moveDown
  split
  · rw [Nat.add_right_comm]
  · rfl

/-- Moving down a position and passing a text may be done in either order. -/
theorem Position.after_moveDown (lines : Nat) (position : Position) (text : List Char) :
    (position.moveDown lines).after text = (position.after text).moveDown lines := by
  induction text generalizing position with
  | nil => rfl
  | cons char rest inductionHypothesis =>
    rw [after_cons, after_cons, next_moveDown, inductionHypothesis]

/-- A token that is moved down is the token of the moved piece. -/
theorem Piece.token?_moveDown (lines : Nat) (position : Position) (piece : Piece) :
    piece.token? (position.moveDown lines) =
      (piece.token? position).map (Token.moveDown lines) := by
  unfold token?
  split <;> rfl

theorem Piece.error?_moveDown (lines : Nat) (position : Position) (piece : Piece) :
    piece.error? (position.moveDown lines) =
      (piece.error? position).map (LexicalError.moveDown lines) := by
  unfold error?
  split <;> rfl

/-- What moves down with its piece moves down with all pieces. -/
theorem placed_moveDown {α : Type} {read? : Position → Piece → Option α} {lines : Nat}
    {move : α → α}
    (moves : ∀ position piece,
      read? (position.moveDown lines) piece = (read? position piece).map move)
    (position : Position) (pieces : List Piece) :
    placed read? (position.moveDown lines) pieces = (placed read? position pieces).map move := by
  induction pieces generalizing position with
  | nil => rfl
  | cons piece others inductionHypothesis =>
    rw [placed_cons, placed_cons, moves, Position.after_moveDown, inductionHypothesis,
      List.map_append, Option.toList_map]

/-! ### Rules that stop at the end of a line -/

section Runs

variable {sort : Char → Bool} {stop : Char}

/-- A run of characters stops where it must, whatever comes behind. -/
theorem takeWhile_append_stop (excluded : sort stop = false) (line tail : List Char) :
    (line ++ stop :: tail).takeWhile sort = line.takeWhile sort := by
  induction line with
  | nil => simp [excluded]
  | cons char rest inductionHypothesis =>
    rw [List.cons_append, List.takeWhile_cons, List.takeWhile_cons, inductionHypothesis]

/-- What is behind the run then is the same text, longer at its end. -/
theorem dropWhile_append_stop (excluded : sort stop = false) (line tail : List Char) :
    (line ++ stop :: tail).dropWhile sort = line.dropWhile sort ++ stop :: tail := by
  induction line with
  | nil => simp [excluded]
  | cons char rest inductionHypothesis =>
    rw [List.cons_append, List.dropWhile_cons, List.dropWhile_cons, inductionHypothesis]
    split <;> rfl

end Runs

namespace Escape

/-- A character that is neither plain nor opens an escape sequence ends the body of a string. -/
theorem body_stop {char : Char} {rest : List Char} (stops : ¬ isPlain char)
    (different : ∀ letter more, char = '[' → rest = letter :: ']' :: more → letter = '\n') :
    body (char :: rest) = ([], char :: rest) := by
  unfold body
  split
  · rename_i letter more same
    obtain ⟨rfl, rfl⟩ := List.cons.inj same
    rw [if_pos (different letter more rfl rfl)]
  · rename_i same
    obtain ⟨rfl, rfl⟩ := List.cons.inj same
    rw [if_neg stops]
  · contradiction

theorem body_plain {char : Char} (plain : isPlain char) (rest : List Char) :
    body (char :: rest) = (char :: (body rest).1, (body rest).2) := by
  have opening : char ≠ '[' := by
    rintro rfl
    cases plain
  rw [body.eq_2 char rest (fun _ _ same _ => opening same), if_pos plain]

/-- The body of a string that is cut at a newline is the one of its line. -/
theorem body_append_newline (text tail : List Char) :
    body (text ++ '\n' :: tail) = ((body text).1, (body text).2 ++ '\n' :: tail) := by
  fun_induction body text with
  | case1 rest => simp [body]
  | case2 letter rest other taken after split inductionHypothesis =>
    simp [body, other, inductionHypothesis, split]
  | case3 char rest different plain taken after split inductionHypothesis =>
    rw [List.cons_append, body_plain plain, inductionHypothesis, split]
  | case4 char rest different stops =>
    refine body_stop stops fun letter more opening follows => ?_
    -- An escape sequence that only the newline completes would hold it.
    match rest, follows with
    | [], follows => exact (List.cons.inj follows).1.symm
    | [_], follows => simp at follows
    | _ :: _ :: others, follows =>
      obtain ⟨-, rest⟩ := List.cons.inj follows
      obtain ⟨closed, -⟩ := List.cons.inj rest
      exact (different _ others opening (by rw [closed])).elim
  | case5 => simp [body, isPlain]

/-- A broken literal ends in front of the newline. -/
theorem broken_append_newline (text tail : List Char) :
    broken (text ++ '\n' :: tail) = ((broken text).1, (broken text).2 ++ '\n' :: tail) := by
  match text with
  | [] => simp [broken]
  | opening :: rest =>
    by_cases opens : opening = '['
    · match rest with
      | [] => simp [broken, opens]
      | letter :: more => by_cases newline : letter = '\n' <;> simp [broken, opens, newline]
    · simp [broken, opens]

end Escape

namespace Piece

/-- A rule of cutting that takes a newline for the end of the text. -/
def LineLocal (rule : Char → List Char → Piece × List Char) : Prop :=
  ∀ char rest tail,
    rule char (rest ++ '\n' :: tail) = ((rule char rest).1, (rule char rest).2 ++ '\n' :: tail)

/-- A comment ends with its line. -/
theorem cutComment_lineLocal : LineLocal cutComment := by
  intro char rest tail
  simp only [cutComment, takeWhile_append_stop, dropWhile_append_stop, bne_self_eq_false]

theorem cutGap_lineLocal : LineLocal cutGap := by
  intro char rest tail
  have excluded : isGapChar '\n' = false := rfl
  simp only [cutGap, takeWhile_append_stop excluded, dropWhile_append_stop excluded]

/-- A rule of cutting that takes the given character for the end of the text. -/
def StopsAt (stop : Char) (rule : Char → List Char → Piece × List Char) : Prop :=
  ∀ char rest tail,
    rule char (rest ++ stop :: tail) = ((rule char rest).1, (rule char rest).2 ++ stop :: tail)

section Stops

variable {stop : Char}

/-- A word stops in front of any character that does not go on with it. -/
theorem cutWord_stopsAt (excluded : continuesWord stop = false) : StopsAt stop cutWord := by
  intro char rest tail
  simp only [cutWord, takeWhile_append_stop excluded, dropWhile_append_stop excluded]

/-- A number stops in front of any character but a digit and a point. -/
theorem cutNumber_stopsAt (excluded : Text.isDigit stop = false) (other : stop ≠ '.') :
    StopsAt stop cutNumber := by
  intro char rest tail
  unfold cutNumber
  simp only [takeWhile_append_stop excluded, dropWhile_append_stop excluded]
  -- A point at the end of the text has no digit behind it, nor has one in front of the stop.
  match rest.dropWhile Text.isDigit with
  | [] => simp [other]
  | [point] =>
    by_cases found : point = '.'
    · simp [found, excluded]
    · simp [found]
  | point :: digit :: more =>
    by_cases found : point = '.'
    · by_cases isDigit : Text.isDigit digit
      · simp [found, isDigit, takeWhile_append_stop excluded, dropWhile_append_stop excluded]
      · simp [found, isDigit]
    · simp [found]

theorem cutSingle_stopsAt : StopsAt stop cutSingle := by
  intro char rest tail
  unfold cutSingle
  split <;> rfl

/-- A stop completes no operator. -/
theorem cutOperator_stopsAt (alone : ∀ char, pairKind? char stop = none) :
    StopsAt stop cutOperator := by
  intro char rest tail
  cases rest with
  | nil =>
    simp only [List.nil_append, cutOperator, alone]
    exact cutSingle_stopsAt char [] tail
  | cons second more =>
    simp only [List.cons_append, cutOperator]
    split
    · rfl
    · exact cutSingle_stopsAt char (second :: more) tail

end Stops

/-- A string ends with its line, closed or broken. -/
theorem cutString_lineLocal : LineLocal cutString := by
  intro quote rest tail
  unfold cutString
  simp only [Escape.body_append_newline]
  match after : (Escape.body rest).2 with
  | [] => simp [Escape.broken]
  | close :: more =>
    by_cases closed : close = '"'
    · simp [closed]
    · have rejected := Escape.broken_append_newline (close :: more) tail
      simp only [List.cons_append] at rejected
      simp [closed, rejected]

theorem cutCharacter_lineLocal : LineLocal cutCharacter := by
  intro quote rest tail
  cases rest with
  | nil => rfl
  | cons char more =>
    by_cases newline : char = '\n'
    · simp [cutCharacter, newline]
    · cases more with
      | nil => simp [cutCharacter, newline]
      | cons close after =>
        by_cases closed : close = '\''
        · simp [cutCharacter, newline, closed]
        · simp [cutCharacter, newline, closed]

theorem cutEscape_lineLocal : LineLocal cutEscape := by
  intro bracket rest tail
  cases rest with
  | nil => rfl
  | cons letter more =>
    by_cases newline : letter = '\n'
    · simp [cutEscape, newline]
    · cases more with
      | nil => simp [cutEscape, newline]
      | cons close after =>
        by_cases closed : close = ']'
        · simp [cutEscape, newline, closed]
        · simp [cutEscape, newline, closed]

/-- No operator of two characters ends with a newline. -/
theorem pairKind?_newline (char : Char) : pairKind? char '\n' = none := by
  cases found : pairKind? char '\n' with
  | none => rfl
  | some kind => exact absurd rfl (pairKind?_ne found).1

/-- Every rule of cutting takes a newline for the end of the text. -/
theorem cut_lineLocal : LineLocal cut := by
  intro char rest tail
  have second : (rest ++ '\n' :: tail).head? = some '%' ↔ rest.head? = some '%' := by
    cases rest <;> simp
  unfold cut
  simp only [second]
  split
  · exact cutComment_lineLocal char rest tail
  split
  · rfl
  split
  · exact cutGap_lineLocal char rest tail
  split
  · exact cutNumber_stopsAt (by decide) (by decide) char rest tail
  split
  · exact cutString_lineLocal char rest tail
  split
  · exact cutCharacter_lineLocal char rest tail
  split
  · exact cutEscape_lineLocal char rest tail
  split
  · exact cutWord_stopsAt rfl char rest tail
  · exact cutOperator_stopsAt pairKind?_newline char rest tail

/-- A newline is a piece of its own. -/
theorem cut_newline (rest : List Char) : cut '\n' rest = (plain .newline ['\n'], rest) := by
  simp [cut]

end Piece

/-! ### Lines one by one -/

/-- The pieces of a text that goes on behind a newline are those of its parts. -/
theorem pieces_append_newline (first second : List Char) :
    pieces (first ++ '\n' :: second) =
      pieces first ++ Piece.plain .newline ['\n'] :: pieces second := by
  fun_induction pieces first with
  | case1 => rw [List.nil_append, List.nil_append, pieces, Piece.cut_newline]
  | case2 char rest found inductionHypothesis =>
    rw [List.cons_append, pieces, Piece.cut_lineLocal, inductionHypothesis, List.cons_append]

/-- Pieces one behind the other are placed one behind the other. -/
theorem placed_append {α : Type} (read? : Position → Piece → Option α) (position : Position)
    (first second : List Piece) :
    placed read? position (first ++ second) =
      placed read? position first ++
        placed read? (position.after (first.flatMap Piece.text)) second := by
  induction first generalizing position with
  | nil => rfl
  | cons piece others inductionHypothesis =>
    rw [List.cons_append, placed_cons, placed_cons, inductionHypothesis, List.flatMap_cons,
      Position.after_append, List.append_assoc]

/-- The number of lines of a text, also if nothing stands on the last of them. -/
def lineCount (source : String) : Nat :=
  source.toList.count '\n' + 1

section Continued

variable (first second : String)

/-- Behind the newline that ends a text, another one starts below all its lines. -/
theorem next_behind_newline :
    (Position.behind first.toList).next '\n' = Position.start.moveDown (lineCount first) := by
  rw [Position.next, if_pos rfl, Position.moveDown, lineCount, Position.behind, Position.start,
    Nat.add_comm 1]

theorem behind_append_newline :
    Position.behind (first.toList ++ '\n' :: second.toList) =
      (Position.behind second.toList).moveDown (lineCount first) := by
  rw [← Position.after_behind, Position.after_cons, next_behind_newline, Position.after_moveDown,
    Position.after_start]

/-- What is read off a text that goes on behind a newline. -/
theorem placed_append_newline {α : Type} {read? : Position → Piece → Option α} {move : α → α}
    (moves : ∀ position piece,
      read? (position.moveDown (lineCount first)) piece = (read? position piece).map move) :
    placed read? .start (pieces (first.toList ++ '\n' :: second.toList)) =
      placed read? .start (pieces first.toList) ++
        ((read? (.behind first.toList) (.plain .newline ['\n'])).toList ++
          (placed read? .start (pieces second.toList)).map move) := by
  rw [pieces_append_newline, placed_append, flatMap_text_pieces, Position.after_start,
    placed_cons, ← placed_moveDown moves, ← next_behind_newline]
  rfl

/-- A text that goes on behind a newline is lexed as its two parts are: the tokens of the first
without its end, the newline in place of that end, and the tokens of the second moved down by the
lines of the first. Likewise for the errors. So no literal, escape sequence or comment, however
malformed, reaches beyond its line. -/
theorem lex_append_newline :
    ∃ front, (lex first).tokens = front ++ [Token.endAt (.behind first.toList)] ∧
      lex (first ++ "\n" ++ second) =
        ⟨front ++ ⟨.newline, "\n", none, .behind first.toList⟩ ::
            (lex second).tokens.map (Token.moveDown (lineCount first)),
          (lex first).errors ++
            (lex second).errors.map (LexicalError.moveDown (lineCount first))⟩ := by
  refine ⟨placed Piece.token? .start (pieces first.toList), by rw [lex_eq], ?_⟩
  have whole : (first ++ "\n" ++ second).toList = first.toList ++ '\n' :: second.toList := by simp
  have tokens := placed_append_newline first second (Piece.token?_moveDown (lineCount first))
  have errors := placed_append_newline first second (Piece.error?_moveDown (lineCount first))
  simp only [lex_eq, whole, tokens, errors, behind_append_newline, List.map_append,
    List.append_assoc]
  rfl

end Continued

end LineScript
