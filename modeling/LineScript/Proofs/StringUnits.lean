/-
Module: LineScript.Proofs.StringUnits
Purpose: String literals can denote every text, one unit for each character of it.
Trusted boundary: none
Main exports: StringUnit, Escape.literalOf, cut_units, lex_literalOf,
  StringUnit.literals_read_by_units
-/
import LineScript.Proofs.Padding

/-!
The body of a string literal is a run of units, and there is only one way to read it as such: a
bracket that opens an escape sequence is no unit by itself. Where the literal ends and what it
denotes is found in two passes over the text, both of which take it unit by unit, so neither a quote
nor a bracket inside an escape sequence is mistaken for one outside. Every character is denoted by
some unit, hence every text by some literal.
-/

namespace LineScript

/-- What the body of a string literal is made of. -/
inductive StringUnit where
  /-- An escape sequence: any character of a line between square brackets. -/
  | sequence (letter : Char) (oneLine : letter ≠ '\n')
  /-- A character that is neither a quote nor an opening bracket nor a newline. -/
  | plain (char : Char) (isPlain : Escape.isPlain char)

namespace StringUnit

/-- The unit as it is written. -/
def text : StringUnit → List Char
  | .sequence letter _ => ['[', letter, ']']
  | .plain char _ => [char]

/-- The character that the unit denotes. -/
def denoted : StringUnit → Char
  | .sequence letter _ => Escape.meaning letter
  | .plain char _ => char

/-- The string literal that is made of some units. -/
def literal (units : List StringUnit) : String :=
  String.ofList ('"' :: units.flatMap text ++ ['"'])

theorem plain_ne_bracket {char : Char} (plain : Escape.isPlain char) : char ≠ '[' := by
  rintro rfl
  cases plain

/-! ### Units are read one by one -/

theorem decode_append (unit : StringUnit) (rest : List Char) :
    Escape.decode (unit.text ++ rest) = unit.denoted :: Escape.decode rest := by
  cases unit with
  | sequence letter oneLine => simp [text, denoted, Escape.decode, oneLine]
  | plain char isPlain =>
    have opening := plain_ne_bracket isPlain
    exact Escape.decode.eq_2 char rest fun _ _ same _ => opening same

theorem body_append (unit : StringUnit) (rest : List Char) :
    Escape.body (unit.text ++ rest) =
      (unit.text ++ (Escape.body rest).1, (Escape.body rest).2) := by
  cases unit with
  | sequence letter oneLine => simp [text, Escape.body, oneLine]
  | plain char isPlain => exact Escape.body_plain isPlain rest

/-- Each unit is decoded by itself. -/
theorem decode_text (unit : StringUnit) : Escape.decode unit.text = [unit.denoted] := by
  have alone := unit.decode_append []
  rwa [List.append_nil] at alone

/-- What units denote does not depend on those next to them. -/
theorem decode_units (units : List StringUnit) :
    Escape.decode (units.flatMap text) = units.map denoted := by
  induction units with
  | nil => rfl
  | cons unit rest inductionHypothesis =>
    rw [List.flatMap_cons, decode_append, inductionHypothesis, List.map_cons]

/-- A quote behind units ends the body that they make. -/
theorem body_units (units : List StringUnit) (rest : List Char) :
    Escape.body (units.flatMap text ++ '"' :: rest) = (units.flatMap text, '"' :: rest) := by
  induction units with
  | nil => exact Escape.body_stop (by decide) fun _ _ opening => absurd opening (by decide)
  | cons unit others inductionHypothesis =>
    rw [List.flatMap_cons, List.append_assoc, body_append, inductionHypothesis]

/-- Every body is made of units. -/
theorem exists_units (rest : List Char) :
    ∃ units : List StringUnit, (Escape.body rest).1 = units.flatMap text := by
  fun_induction Escape.body rest with
  | case1 => exact ⟨[], rfl⟩
  | case2 letter rest oneLine taken after split inductionHypothesis =>
    rw [split] at inductionHypothesis
    obtain ⟨units, rfl⟩ := inductionHypothesis
    exact ⟨.sequence letter oneLine :: units, rfl⟩
  | case3 char rest _ isPlain taken after split inductionHypothesis =>
    rw [split] at inductionHypothesis
    obtain ⟨units, rfl⟩ := inductionHypothesis
    exact ⟨.plain char isPlain :: units, rfl⟩
  | case4 => exact ⟨[], rfl⟩
  | case5 => exact ⟨[], rfl⟩

theorem text_ne_nil (unit : StringUnit) : unit.text ≠ [] := by
  cases unit <;> simp [text]

/-- The bracket tells an escape sequence from a character by itself. -/
theorem text_append_inj {unit other : StringUnit} {rest more : List Char}
    (same : unit.text ++ rest = other.text ++ more) : unit = other ∧ rest = more := by
  cases unit with
  | sequence letter oneLine =>
    cases other with
    | sequence otherLetter _ => simpa [text] using same
    | plain char isPlain => exact absurd (List.cons.inj same).1.symm (plain_ne_bracket isPlain)
  | plain char isPlain =>
    cases other with
    | sequence letter _ => exact absurd (List.cons.inj same).1 (plain_ne_bracket isPlain)
    | plain otherChar _ => simpa [text] using same

/-- A text is read as units in one way only. -/
theorem flatMap_text_inj {units others : List StringUnit}
    (same : units.flatMap text = others.flatMap text) : units = others := by
  induction units generalizing others with
  | nil =>
    cases others with
    | nil => rfl
    | cons other more => exact absurd (List.append_eq_nil_iff.mp same.symm).1 other.text_ne_nil
  | cons unit rest inductionHypothesis =>
    cases others with
    | nil => exact absurd (List.append_eq_nil_iff.mp same).1 unit.text_ne_nil
    | cons other more =>
      obtain ⟨rfl, behind⟩ := text_append_inj same
      rw [inductionHypothesis behind]

theorem literal_inj {units others : List StringUnit} (same : literal units = literal others) :
    units = others := by
  have chars := congrArg String.toList same
  simp only [literal, String.toList_ofList, List.cons_append, List.cons.injEq, true_and] at chars
  exact flatMap_text_inj (List.append_cancel_right chars)

end StringUnit

/-! ### String literals among the pieces of a text -/

namespace Piece

theorem cut_quote (rest : List Char) : cut '"' rest = cutString '"' rest := by
  rw [cut, if_neg (fun both => absurd both.1 (by decide)), if_neg (by decide), if_neg (by decide),
    if_neg (by decide), if_pos rfl]

theorem cutString_units (quote : Char) (units : List StringUnit) (rest : List Char) :
    cutString quote (units.flatMap StringUnit.text ++ '"' :: rest) =
      (Piece.literal .stringLiteral (.text (String.ofList (units.map StringUnit.denoted)))
        (quote :: units.flatMap StringUnit.text ++ ['"']), rest) := by
  rw [cutString, StringUnit.body_units]
  dsimp only
  rw [StringUnit.decode_units]
  rfl

/-- Units between quotes are cut off as one string literal. -/
theorem cut_units (units : List StringUnit) (rest : List Char) :
    cut '"' (units.flatMap StringUnit.text ++ '"' :: rest) =
      (Piece.literal .stringLiteral (.text (String.ofList (units.map StringUnit.denoted)))
        ('"' :: units.flatMap StringUnit.text ++ ['"']), rest) := by
  rw [cut_quote, cutString_units]

/-- A quote starts a token only in front of units and a closing quote. -/
theorem exists_units_of_cutString {quote : Char} {rest : List Char} {kind : TokenKind}
    {value : Option Value} (token : (cutString quote rest).1.role = .token kind value) :
    ∃ (units : List StringUnit) (more : List Char),
      rest = units.flatMap StringUnit.text ++ '"' :: more := by
  obtain ⟨units, body⟩ := StringUnit.exists_units rest
  have whole := body_append rest
  unfold cutString at token
  dsimp only at token
  split at token
  · rename_i more closed
    rw [body, closed] at whole
    exact ⟨units, more, whole.symm⟩
  · cases token

/-- A string literal that starts with a quote is made of units between quotes. -/
theorem exists_units_of_cut {char : Char} {rest : List Char} {value : Option Value}
    (role : (cut char rest).1.role = .token .stringLiteral value)
    (quoted : (cut char rest).1.text.head? = some '"') :
    ∃ units : List StringUnit,
      (cut char rest).1.text = '"' :: units.flatMap StringUnit.text ++ ['"'] ∧
        value = some (.text (String.ofList (units.map StringUnit.denoted))) := by
  obtain ⟨tail, text, _⟩ := cut_faithful char rest
  rw [text, List.head?_cons, Option.some.injEq] at quoted
  rw [quoted, cut_quote] at role ⊢
  obtain ⟨units, more, rfl⟩ := exists_units_of_cutString role
  rw [cutString_units] at role ⊢
  cases role
  exact ⟨units, rfl, rfl⟩

end Piece

namespace StringUnit

theorem exists_units_of_mem_lex {source : String} {token : Token}
    (member : token ∈ (lex source).tokens) (kind : token.kind = .stringLiteral)
    (quoted : token.lexeme.toList.head? = some '"') :
    ∃ units, token.lexeme = literal units ∧
      token.literal = some (.text (String.ofList (units.map denoted))) := by
  rw [lex_eq] at member
  rcases List.mem_append.mp member with placed | last
  · obtain ⟨place, char, rest, _, value, role, rfl⟩ := exists_cut_of_token placed
    cases kind
    rw [String.toList_ofList] at quoted
    obtain ⟨units, text, denotes⟩ := Piece.exists_units_of_cut role quoted
    exact ⟨units, congrArg String.ofList text, denotes⟩
  · rw [List.mem_singleton.mp last] at kind
    cases kind

end StringUnit

/-! ### Every text has a literal -/

namespace Escape

/-- How a character is written between the quotes of a string literal. Newlines, opening brackets
and quotes are written as escape sequences, all others as they are. -/
def written (char : Char) : List Char :=
  if char = '\n' then ['[', 'n', ']']
  else if char = '[' ∨ char = '"' then ['[', char, ']']
  else [char]

/-- The string literal of a text. -/
def literalOf (content : String) : String :=
  String.ofList ('"' :: content.toList.flatMap written ++ ['"'])

/-- A character is written as a unit that denotes it. -/
theorem exists_unit_written (char : Char) :
    ∃ unit : StringUnit, unit.text = written char ∧ unit.denoted = char := by
  by_cases newline : char = '\n'
  · exact ⟨.sequence 'n' (by decide), by rw [written, if_pos newline]; rfl, newline.symm⟩
  by_cases reserved : char = '[' ∨ char = '"'
  · have same : meaning char = char := by
      rcases reserved with rfl | rfl
      · rfl
      · rfl
    exact ⟨.sequence char newline, by rw [written, if_neg newline, if_pos reserved]; rfl, same⟩
  · obtain ⟨bracket, quote⟩ := not_or.mp reserved
    have plain : isPlain char := by simp [isPlain, newline, bracket, quote]
    exact ⟨.plain char plain, by rw [written, if_neg newline, if_neg reserved]; rfl, rfl⟩

theorem exists_units_written (content : List Char) :
    ∃ units : List StringUnit, units.flatMap StringUnit.text = content.flatMap written ∧
      units.map StringUnit.denoted = content := by
  induction content with
  | nil => exact ⟨[], rfl, rfl⟩
  | cons char rest inductionHypothesis =>
    obtain ⟨units, text, denotes⟩ := inductionHypothesis
    obtain ⟨unit, first, denotesFirst⟩ := exists_unit_written char
    refine ⟨unit :: units, ?_, ?_⟩
    · rw [List.flatMap_cons, List.flatMap_cons, first, text]
    · rw [List.map_cons, denotesFirst, denotes]

/-- Whatever follows the literal of a text, it is lexed as one token that denotes the text. -/
theorem lex_literalOf (content following : String) :
    (lex (literalOf content ++ following)).tokens.head? =
      some ⟨.stringLiteral, literalOf content, some (.text content), .start⟩ := by
  obtain ⟨units, text, denotes⟩ := exists_units_written content.toList
  have whole : (literalOf content ++ following).toList =
      '"' :: (units.flatMap StringUnit.text ++ '"' :: following.toList) := by
    simp [literalOf, text]
  rw [lex_eq, whole, pieces, Piece.cut_units, placed_cons, denotes, text, String.ofList_toList]
  rfl

end Escape

/-- Every text is denoted by a string literal, whatever stands behind it: newlines, opening brackets
and quotes are written as escape sequences, all else as it is. And every token that is a string
literal with quotes is made of units in just one way, and denotes one character for each of them,
the one that the unit denotes by itself. So escape sequences are told apart in the same way where
the literal is delimited and where it is decoded. -/
theorem StringUnit.literals_read_by_units :
    (∀ content following : String,
      (lex (Escape.literalOf content ++ following)).tokens.head? =
        some ⟨.stringLiteral, Escape.literalOf content, some (.text content), .start⟩) ∧
    ∀ source : String, ∀ token ∈ (lex source).tokens, token.kind = .stringLiteral →
      token.lexeme.toList.head? = some '"' →
        ∃ (units : List StringUnit) (content : String),
          token.lexeme = literal units ∧
          (∀ others, token.lexeme = literal others → others = units) ∧
          token.literal = some (.text content) ∧ content.length = units.length ∧
          List.Forall₂ (fun char unit => Escape.decode (text unit) = [char])
            content.toList units := by
  refine ⟨Escape.lex_literalOf, fun source token member kind quoted => ?_⟩
  obtain ⟨units, lexeme, denotes⟩ := exists_units_of_mem_lex member kind quoted
  refine ⟨units, _, lexeme, ?_, denotes, by simp, ?_⟩
  · intro others same
    exact literal_inj (same.symm.trans lexeme)
  · rw [String.toList_ofList, List.forall₂_map_left_iff, List.forall₂_same]
    exact fun unit _ => unit.decode_text

/-- A literal with an escaped newline and an escaped bracket, behind a name. -/
def bracketedLiteral : String := "x = \"a[n][[]\""

/-- It has three units, and each denotes one of its three characters. -/
theorem bracketedLiteral_read_by_units :
    ∃ token ∈ (lex bracketedLiteral).tokens, token.literal = some (.text "a\n[") ∧
      ∃ units : List StringUnit, token.lexeme = StringUnit.literal units ∧ units.length = 3 ∧
        (∀ others, token.lexeme = StringUnit.literal others → others = units) ∧
        List.Forall₂ (fun char unit => Escape.decode (StringUnit.text unit) = [char])
          ['a', '\n', '['] units := by
  let token : Token :=
    ⟨.stringLiteral, "\"a[n][[]\"", some (.text "a\n["), ⟨1, 5⟩⟩
  have member : token ∈ (lex bracketedLiteral).tokens := by decide +kernel
  obtain ⟨units, content, lexeme, unique, denotes, count, decoded⟩ :=
    StringUnit.literals_read_by_units.2 bracketedLiteral token member rfl (by decide)
  cases denotes
  exact ⟨token, member, rfl, units, lexeme, count.symm, unique, decoded⟩

end LineScript
