/-
Module: LineScript.Proofs.InputRoundTrip
Purpose: A line of input on which values are written is read as these values.
Trusted boundary: none
Main exports: Reads, ReadsOne, Value.inputText?, Reads.read?_eq, Run.readValues_written
-/
import LineScript.Proofs.InputLines
import LineScript.Proofs.StringUnits

/-!
Integers and truth values are written on a line of input as they are printed, and texts as string
literals, with commas between the values. A comma ends every token, so each value is lexed by
itself. A negative integer is two tokens: its sign only counts for the number right behind it, and a
comma stands between them and the next value. What a text holds is inside its quotes, so neither
commas nor quotes nor comments in it are taken for those of the line.
-/

namespace LineScript

/-! ### Digits -/

/-- A number has at most so many digits just when it is below that power of ten. -/
theorem Number.length_natDigits_le_iff {value limit : Nat} (positive : 0 < limit) :
    (natDigits value).length ≤ limit ↔ value < Nat.pow 10 limit :=
  Nat.length_toDigits_le_iff (by decide) positive

namespace Text

/-- The digits that numbers are printed with are those of the first script. -/
theorem digitValue?_of_isDigit {char : Char} (digit : char.isDigit) :
    digitValue? char = some (char.toNat - '0'.toNat) := by
  have range : 0x30 ≤ char.toNat ∧ char.toNat < 0x30 + 10 := by
    simp only [Char.isDigit, Bool.and_eq_true, decide_eq_true_eq, ge_iff_le] at digit
    obtain ⟨low, high⟩ := digit
    exact ⟨low, Nat.lt_succ_of_le high⟩
  rw [digitValue?, digitZeros, List.find?_cons_of_pos (by simpa using range)]
  rfl

/-- An integer is written in digits alone. -/
theorem isDigit_of_mem_natDigits (value : Nat) :
    ∀ char ∈ Number.natDigits value, isDigit char := by
  intro char member
  rw [isDigit, digitValue?_of_isDigit (Number.isDigit_of_mem_natDigits member)]
  rfl

theorem not_mem_of_isDigit {char : Char} (digit : isDigit char) :
    char ∉ ['%', '\n', ' ', '\t', '\r'] := by
  simp only [List.mem_cons, List.not_mem_nil, or_false]
  rintro (rfl | rfl | rfl | rfl | rfl) <;> exact absurd digit (by decide)

/-- A number is denoted by its digits. -/
theorem digitsValue_natDigits (value : Nat) : digitsValue (Number.natDigits value) = value := by
  have same : digitsValue (Number.natDigits value) =
      Nat.ofDigitChars 10 (Number.natDigits value) 0 := by
    refine List.foldl_ext _ _ _ fun total char member => ?_
    rw [digitValue?_of_isDigit (Number.isDigit_of_mem_natDigits member), Option.getD_some]
  rw [same]
  exact Nat.ofDigitChars_ten_toDigits

end Text

/-! ### Pieces in front of a comma -/

namespace Piece

/-- A comma ends whatever token is in front of it. -/
theorem endsTokens_comma : EndsTokens ',' :=
  ⟨by decide, by decide, rfl, by decide, by decide⟩

theorem pairKind?_eq_none {first : Char} (other : first ∉ ['=', '>', '<']) (second : Char) :
    pairKind? first second = none := by
  unfold pairKind?
  split <;> simp_all

/-- An operator of one character that starts no longer one. -/
theorem cut_single {char : Char} {kind : TokenKind} {rest : List Char}
    (operator : cut char rest = cutOperator char rest) (other : char ∉ ['=', '>', '<'])
    (single : singleKind? char = some kind) : cut char rest = (plain kind [char], rest) := by
  have found : cutSingle char rest = (plain kind [char], rest) := by rw [cutSingle, single]
  rw [operator]
  cases rest with
  | nil => exact found
  | cons second more => rw [cutOperator, pairKind?_eq_none other, found]

/-- A comma is a piece of its own. -/
theorem cut_comma (rest : List Char) : cut ',' rest = (plain .comma [','], rest) :=
  cut_single rfl (by decide) rfl

theorem cut_minus (rest : List Char) : cut '-' rest = (plain .minus ['-'], rest) :=
  cut_single rfl (by decide) rfl

/-- A digit starts a number. -/
theorem cut_digit {char : Char} (digit : Text.isDigit char) (rest : List Char) :
    cut char rest = cutNumber char rest := by
  have other := Text.not_mem_of_isDigit digit
  simp only [List.mem_cons, List.not_mem_nil, not_or] at other
  obtain ⟨percent, newline, space, tab, carriage, -⟩ := other
  simp [cut, isGapChar, percent, newline, space, tab, carriage, digit]

/-- The piece is a token. -/
def IsToken (piece : Piece) : Prop :=
  ∃ kind value, piece.role = .token kind value

end Piece

theorem pieces_of_cut {char : Char} {rest : List Char} {piece : Piece}
    (whole : Piece.cut char rest = (piece, [])) : pieces (char :: rest) = [piece] := by
  rw [pieces, whole, pieces]

/-- Behind tokens, a comma is a token of its own. -/
theorem pieces_append_comma {text : List Char} (tokens : ∀ piece ∈ pieces text, piece.IsToken)
    (following : List Char) :
    pieces (text ++ ',' :: following) =
      pieces text ++ Piece.plain .comma [','] :: pieces following := by
  fun_induction pieces text with
  | case1 => rw [List.nil_append, List.nil_append, pieces, Piece.cut_comma]
  | case2 char rest found inductionHypothesis =>
    obtain ⟨⟨kind, value, role⟩, others⟩ := List.forall_mem_cons.mp tokens
    rw [List.cons_append, pieces, Piece.cut_append_stop Piece.endsTokens_comma role,
      inductionHypothesis others, List.cons_append]

/-! ### What a line is read as -/

/-- A text on one line that neither begins nor ends with a blank. -/
structure Text.Solid (text : List Char) : Prop where
  oneLine : '\n' ∉ text
  first : ∀ char ∈ text.head?, ¬ Piece.isGapChar char
  last : ∀ char ∈ text.getLast?, ¬ Piece.isGapChar char

namespace Text.Solid

variable {text line : List Char}

theorem nil : Solid [] :=
  ⟨List.not_mem_nil, nofun, nofun⟩

theorem of_forall (solid : ∀ char ∈ text, char ≠ '\n' ∧ ¬ Piece.isGapChar char) : Solid text where
  oneLine member := (solid _ member).1 rfl
  first char member := (solid char (List.mem_of_mem_head? member)).2
  last char member := (solid char (List.mem_of_getLast? member)).2

/-- Texts are written one behind the other with a comma and a space between them. -/
theorem append (front : Solid text) (back : Solid line) (something : line ≠ []) :
    Solid (text ++ ',' :: ' ' :: line) where
  oneLine := by simpa [front.oneLine] using back.oneLine
  first char member := by
    cases text with
    | nil =>
      obtain rfl : ',' = char := by simpa using member
      decide
    | cons other rest => exact front.first char member
  last char member := by
    obtain ⟨final, ends⟩ := Option.isSome_iff_exists.mp (List.getLast?_isSome.mpr something)
    have same : (text ++ ',' :: ' ' :: line).getLast? = line.getLast? := by
      simp [List.getLast?_append, List.getLast?_cons, ends]
    exact back.last char (same ▸ member)

/-- Only the newline is dropped from the end of such a line. -/
theorem dropLineEnd_eq (solid : Solid line) : dropLineEnd (line ++ ['\n']) = line := by
  have last := solid.last
  rw [dropLineEnd, List.reverse_append, List.reverse_singleton, List.singleton_append,
    List.dropWhile_cons_of_pos rfl]
  rw [← List.head?_reverse] at last
  have kept : line.reverse.dropWhile (fun char => char == '\n' || char == '\r') =
      line.reverse := by
    have oneLine : '\n' ∉ line.reverse := by simpa using solid.oneLine
    generalize line.reverse = reversed at last oneLine
    cases reversed with
    | nil => rfl
    | cons char rest =>
      -- The last character of the line is none of those that are dropped.
      refine List.dropWhile_cons_of_neg ?_
      have blank := last char rfl
      have newline := List.ne_of_not_mem_cons oneLine
      simp only [Piece.isGapChar, Bool.or_eq_true, beq_iff_eq, not_or] at blank
      simp [newline.symm, blank.2]
  rw [kept, List.reverse_reverse]

end Text.Solid

namespace Input

/-- A text on a line is read as some values, whatever follows its last token. -/
structure Reads (text : List Char) (found : List Value) : Prop where
  solid : Text.Solid text
  clean : ∀ position, placed Piece.error? position (pieces text) = []
  denoted : ∀ position others,
    values false (placed Piece.token? position (pieces text) ++ others) =
      found ++ values false others

/-- A text is read as one value, and a comma behind it does not change that. -/
structure ReadsOne (text : List Char) (value : Value) : Prop extends Reads text [value] where
  something : text ≠ []
  tokens : ∀ piece ∈ pieces text, piece.IsToken

theorem Reads.nil : Reads [] [] := by
  refine ⟨.nil, fun position => ?_, fun position others => ?_⟩
  · rw [pieces]
    rfl
  · rw [pieces]
    rfl

/-- A text that is read as some value is not empty. -/
theorem Reads.ne_nil {text : List Char} {found : List Value} (reads : Reads text found)
    (listed : found ≠ []) : text ≠ [] := by
  rintro rfl
  have denoted := reads.denoted .start []
  rw [pieces] at denoted
  exact listed (List.append_eq_nil_iff.mp denoted.symm).1

/-- A comma and a space keep a value apart from those behind it. -/
theorem ReadsOne.append {text line : List Char} {value : Value} {found : List Value}
    (front : ReadsOne text value) (back : Reads line found) (something : line ≠ []) :
    Reads (text ++ ',' :: ' ' :: line) (value :: found) := by
  have whole : pieces (text ++ ',' :: ' ' :: line) =
      pieces text ++ Piece.plain .comma [','] :: ⟨.gap, [' ']⟩ :: pieces line := by
    rw [pieces_append_comma front.tokens, pieces_space back.solid.first]
  refine ⟨front.solid.append back.solid something, fun position => ?_, fun position others => ?_⟩
  · rw [whole, placed_append, front.clean, placed_cons, placed_cons, back.clean]
    rfl
  · rw [whole, placed_append, List.append_assoc, front.denoted, placed_cons, placed_cons]
    exact congrArg (value :: ·) (back.denoted _ others)

/-- A text that is one token is read as the value that the token denotes. -/
theorem ReadsOne.token {kind : TokenKind} {literal : Option Value} {text : List Char}
    {value : Value} (solid : Text.Solid text) (something : text ≠ [])
    (whole : pieces text = [⟨.token kind literal, text⟩]) (unsigned : kind ≠ .minus)
    (denotes : ∀ position,
      value? false ⟨kind, String.ofList text, literal, position⟩ = some value) :
    ReadsOne text value := by
  refine ⟨⟨solid, fun position => ?_, fun position others => ?_⟩, something, fun piece member => ?_⟩
  · rw [whole]
    rfl
  · have plain : (kind == TokenKind.minus) = false := beq_false_of_ne unsigned
    rw [whole, placed_cons]
    show (value? false _).toList ++ values (kind == .minus) others = _
    rw [denotes, plain]
    rfl
  · rw [whole] at member
    obtain rfl := List.mem_singleton.mp member
    exact ⟨kind, literal, rfl⟩

end Input

/-! ### Texts of single values -/

theorem Escape.newline_not_mem_written (char : Char) : '\n' ∉ written char := by
  unfold written
  split
  · decide
  · rename_i other
    have different : '\n' ≠ char := fun same => other same.symm
    split <;> simpa using different

/-- A string literal neither breaks the line nor has blanks that could be trimmed off. -/
theorem Escape.solid_literalOf (content : String) : Text.Solid (literalOf content).toList := by
  rw [literalOf, String.toList_ofList]
  refine ⟨?_, fun char member => ?_, fun char member => ?_⟩
  · have inside : '\n' ∉ content.toList.flatMap written := by
      intro member
      obtain ⟨char, _, member⟩ := List.mem_flatMap.mp member
      exact newline_not_mem_written char member
    simpa using inside
  · obtain rfl : '"' = char := by simpa using member
    decide
  · rw [List.getLast?_concat] at member
    obtain rfl := Option.mem_some_iff.mp member
    decide

/-- It is one piece of the line, with its content as the value. -/
theorem Escape.pieces_literalOf (content : String) :
    pieces (literalOf content).toList =
      [Piece.literal .stringLiteral (.text content) (literalOf content).toList] := by
  obtain ⟨units, text, denotes⟩ := exists_units_written content.toList
  have whole : (literalOf content).toList =
      '"' :: (units.flatMap StringUnit.text ++ '"' :: []) := by
    simp [literalOf, text]
  rw [whole, pieces_of_cut (Piece.cut_units units []), denotes, String.ofList_toList]
  rfl

namespace Input

theorem readsOne_literalOf (content : String) :
    ReadsOne (Escape.literalOf content).toList (.text content) :=
  .token (Escape.solid_literalOf content) (by simp [Escape.literalOf])
    (Escape.pieces_literalOf content) (by decide) fun _ => rfl

theorem pieces_boolText (truth : Bool) :
    pieces (boolText truth).toList =
      [⟨.token (if truth then .trueWord else .falseWord) (some (.bool truth)),
        (boolText truth).toList⟩] := by
  cases truth with
  | true =>
    show pieces ['T', 'R', 'U', 'E'] = _
    exact pieces_of_cut rfl
  | false =>
    show pieces ['F', 'A', 'L', 'S', 'E'] = _
    exact pieces_of_cut rfl

theorem readsOne_boolText (truth : Bool) : ReadsOne (boolText truth).toList (.bool truth) := by
  have solid : Text.Solid (boolText truth).toList := by
    refine .of_forall ?_
    cases truth <;> simp [boolText, Piece.isGapChar]
  refine .token solid ?_ (pieces_boolText truth) ?_ fun position => ?_
  · cases truth <;> decide
  · cases truth <;> decide
  · cases truth <;> rfl

theorem pieces_natDigits {value : Nat} (short : (Number.natDigits value).length ≤ digitLimit) :
    pieces (Number.natDigits value) =
      [Piece.literal .integerLiteral (.int value) (Number.natDigits value)] := by
  have digits := Text.isDigit_of_mem_natDigits value
  have denotes := Text.digitsValue_natDigits value
  have something : Number.natDigits value ≠ [] := Nat.toDigits_ne_nil
  -- What follows holds of every run of digits that denotes the number.
  generalize Number.natDigits value = text at *
  obtain ⟨first, rest, rfl⟩ := List.exists_cons_of_ne_nil something
  obtain ⟨firstDigit, others⟩ := List.forall_mem_cons.mp digits
  have all : Piece.cut first rest = (Piece.integer (first :: rest), []) := by
    rw [Piece.cut_digit firstDigit, Piece.cutNumber, List.takeWhile_eq_self_iff.mpr others,
      List.dropWhile_eq_nil_iff.mpr others]
  rw [pieces_of_cut all, Piece.integer, if_neg (Nat.not_lt.mpr short), denotes]

/-- A digit is no blank and no newline. -/
theorem solid_digit {char : Char} (digit : Text.isDigit char) :
    char ≠ '\n' ∧ ¬ Piece.isGapChar char := by
  have other := Text.not_mem_of_isDigit digit
  refine ⟨fun newline => other (by simp [newline]), fun blank => other ?_⟩
  exact List.mem_cons_of_mem _ (List.mem_cons_of_mem _ (Piece.mem_gapChars.mp blank))

section Integers

variable {value : Nat} (short : (Number.natDigits value).length ≤ digitLimit)

include short

theorem readsOne_natDigits : ReadsOne (Number.natDigits value) (.int value) :=
  .token (.of_forall fun char member => solid_digit (Text.isDigit_of_mem_natDigits value char member))
    Nat.toDigits_ne_nil (pieces_natDigits short) (by decide) fun _ => rfl

/-- The sign in front of the digits is a token of its own. -/
theorem readsOne_negative : ReadsOne ('-' :: Number.natDigits value) (.int (-value)) := by
  have whole : pieces ('-' :: Number.natDigits value) =
      [Piece.plain .minus ['-'],
        Piece.literal .integerLiteral (.int value) (Number.natDigits value)] := by
    rw [pieces, Piece.cut_minus, pieces_natDigits short]
  refine ⟨⟨.of_forall ?_, fun position => ?_, fun position others => ?_⟩, List.cons_ne_nil _ _, ?_⟩
  · rw [List.forall_mem_cons]
    exact ⟨by decide, fun char member => solid_digit (Text.isDigit_of_mem_natDigits value char member)⟩
  · rw [whole]
    rfl
  · rw [whole]
    rfl
  · rw [whole, List.forall_mem_cons, List.forall_mem_singleton]
    exact ⟨⟨_, _, rfl⟩, ⟨_, _, rfl⟩⟩

end Integers

theorem readsOne_intText {number : Int}
    (short : (Number.natDigits number.natAbs).length ≤ digitLimit) :
    ReadsOne (Number.intText number).toList (.int number) := by
  unfold Number.intText
  split
  · have same : -(number.natAbs : Int) = number := by omega
    have negative := readsOne_negative short
    rw [same] at negative
    simpa [Number.natText] using negative
  · have same : (number.natAbs : Int) = number := by omega
    have whole := readsOne_natDigits short
    rw [same] at whole
    simpa [Number.natText] using whole

end Input

/-! ### Lines of values -/

/-- How a value is written on a line of input: a text as a string literal, all else as in print. -/
def Value.inputText? : Value → Option String
  | .text content => some (Escape.literalOf content)
  | value => value.display?

/-- The values that can be written on a line of input: truth values, texts, and the integers that do
not have too many digits. -/
def Value.FitsLine : Value → Prop
  | .int number => (Number.natDigits number.natAbs).length ≤ digitLimit
  | .bool _ | .text _ => True
  | _ => False

/-- Integers that fit are not too large for print. -/
theorem Value.inputText?_int {number : Int} (fits : (Value.int number).FitsLine) :
    (Value.int number).inputText? = some (Number.intText number) := by
  have short : (Number.natDigits number.natAbs).length ≤ digitLimit := fits
  have small : number.natAbs < leastUnprintable := by
    unfold leastUnprintable
    exact (Number.length_natDigits_le_iff (by decide)).mp short
  have printable : (Value.int number).isPrintable := by
    show decide (number.natAbs < leastUnprintable) = true
    exact decide_eq_true small
  show (Value.int number).display? = _
  rw [Value.display?, if_pos printable, Value.display]

namespace Input

theorem exists_readsOne {value : Value} (fits : value.FitsLine) :
    ∃ text, value.inputText? = some text ∧ ReadsOne text.toList value := by
  cases value with
  | null => exact fits.elim
  | float number => exact fits.elim
  | bool truth => exact ⟨boolText truth, rfl, readsOne_boolText truth⟩
  | text content => exact ⟨Escape.literalOf content, rfl, readsOne_literalOf content⟩
  | int number =>
    exact ⟨Number.intText number, Value.inputText?_int fits, readsOne_intText fits⟩

/-- Written with commas between them, values are read back in their order. -/
theorem exists_reads {found : List Value} (fit : ∀ value ∈ found, value.FitsLine) :
    ∃ texts, found.mapM Value.inputText? = some texts ∧
      Reads (", ".intercalate texts).toList found := by
  induction found with
  | nil => exact ⟨[], rfl, .nil⟩
  | cons value rest inductionHypothesis =>
    obtain ⟨fits, others⟩ := List.forall_mem_cons.mp fit
    obtain ⟨text, written, front⟩ := exists_readsOne fits
    obtain ⟨texts, restWritten, back⟩ := inductionHypothesis others
    refine ⟨text :: texts, by rw [List.mapM_cons, written, restWritten]; rfl, ?_⟩
    cases rest with
    | nil =>
      obtain rfl : texts = [] := by simpa using restWritten.symm
      simpa using front.toReads
    | cons second more =>
      have something := back.ne_nil (List.cons_ne_nil second more)
      cases texts with
      | nil => exact absurd rfl something
      | cons next following =>
        have joined : (", ".intercalate (text :: next :: following)).toList =
            text.toList ++ ',' :: ' ' :: (", ".intercalate (next :: following)).toList := by
          simp [String.toList_intercalate]
        rw [joined]
        exact front.append back something

/-- A line is read as it is lexed, without the newline at its end. -/
theorem Reads.read?_eq {line : List Char} {found : List Value} (reads : Reads line found) :
    read? (line ++ ['\n']) = some found := by
  have denoted := reads.denoted .start [Token.endAt (.behind line)]
  rw [read?, reads.solid.dropLineEnd_eq, lexChars_eq]
  dsimp only
  rw [reads.clean, denoted]
  exact congrArg some (List.append_nil found)

end Input

/-- Integers that do not have too many digits, truth values and texts can be written on a line of
input. The line is read as just these values, in their order, and nothing behind it is taken. -/
theorem Run.readValues_written {found : List Value} (fit : ∀ value ∈ found, value.FitsLine) :
    ∃ texts, found.mapM Value.inputText? = some texts ∧
      ∀ (token : Token) (machine : Machine) (rest : List Char),
        machine.input.unread = (", ".intercalate texts ++ "\n").toList ++ rest →
          readValues token machine = .ok found (machine.leaving rest) := by
  obtain ⟨texts, written, reads⟩ := Input.exists_reads fit
  refine ⟨texts, written, fun token machine rest unread => ?_⟩
  have begins : Text.BeginsWith ((", ".intercalate texts).toList ++ ['\n']) rest
      machine.input.unread := by
    rw [unread, String.toList_append, List.append_assoc]
    exact .closed rest reads.solid.oneLine
  exact readValues_of_some begins reads.read?_eq token

/-- The text on this line holds a comma, a quote, a bracket, the start of a comment and both line
ends. The sign in front of it is not taken for the sign of the number behind it. -/
theorem Run.readValues_mixed_line :
    let found := [Value.int (-12), .text ", \"[%%\n\r", .int 0, .bool true, .text ""]
    let line := "-12, \", [\"][[]%%[n]\r\", 0, TRUE, \"\""
    (∀ value ∈ found, value.FitsLine) ∧
      readValues (Token.endAt .start) (.start ⟨(line ++ "\n7").toList, false⟩) =
        .ok found (.start ⟨['7'], false⟩) := by
  intro found line
  have twelve : (Value.int (-12)).FitsLine := by
    show (Number.natDigits 12).length ≤ digitLimit
    decide
  have zero : (Value.int 0).FitsLine := by
    show (Number.natDigits 0).length ≤ digitLimit
    decide
  have fit : ∀ value ∈ found, value.FitsLine := by
    simp only [found, List.forall_mem_cons]
    exact ⟨twelve, trivial, zero, trivial, trivial, List.forall_mem_nil _⟩
  obtain ⟨texts, written, reads⟩ := readValues_written fit
  have same : found.mapM Value.inputText? =
      some ["-12", "\", [\"][[]%%[n]\r\"", "0", "TRUE", "\"\""] := by
    simp only [found, List.mapM_cons, Value.inputText?_int twelve, Value.inputText?_int zero]
    decide
  obtain rfl := Option.some.inj (written.symm.trans same)
  have begins : (line ++ "\n7").toList =
      (", ".intercalate ["-12", "\", [\"][[]%%[n]\r\"", "0", "TRUE", "\"\""] ++ "\n").toList ++
        ['7'] := by
    decide +kernel
  exact ⟨fit, reads _ (.start ⟨(line ++ "\n7").toList, false⟩) ['7'] begins⟩

end LineScript
