/-
Module: LineScript.Editor.Word
Purpose: The word at a place of a document.
Trusted boundary: `wordAt` stands for a function of the library that speaks the editor protocol. It
  is taken from what that library documents and does, and nothing else is assumed about it: lines
  end at every line boundary, columns count sixteen-bit units, and one beyond its line is its last.
Main exports: isWordChar, wordInLine, wordAt
-/
import LineScript.Text.Basic

/-!
A place is a line and a column, both counted from zero, the column in sixteen-bit units. The word at
a place is the run of ASCII letters, digits and underscores around it, which is empty if there is
none.
-/

namespace LineScript.Editor

/-- A character of a word. -/
def isWordChar (char : Char) : Bool :=
  char.isAlphanum || char == '_'

/-- A line with its boundary counted as one character. -/
def dropCarriageReturns : List Char → List Char
  | '\r' :: '\n' :: rest => '\n' :: dropCarriageReturns rest
  | char :: rest => char :: dropCarriageReturns rest
  | [] => []

/-- How many characters of a line lie before a column. A column beyond the line is taken for its
last one. -/
def charsToColumn (line : List Char) (column : Nat) : Nat :=
  let counted := dropCarriageReturns line
  let width := Text.units counted
  Text.charsBefore (if width < column then width - 1 else column) counted

/-- The longest run of word characters at the end of a text; a final newline does not count. -/
def wordBefore (text : List Char) : List Char :=
  let backwards :=
    match text.reverse with
    | '\n' :: rest => rest
    | all => all
  (backwards.takeWhile isWordChar).reverse

/-- The word around a column of a line. -/
def wordInLine (line : List Char) (column : Nat) : List Char :=
  let count := charsToColumn line column
  wordBefore (line.take count) ++ (line.drop count).takeWhile isWordChar

/-- The word at a place of a document. This is an assumption about the library that speaks the editor
protocol, written as the function it is assumed to compute. -/
def wordAt (document : String) (line column : Nat) : String :=
  match (Text.splitLines document.toList)[line]? with
  | some found => String.ofList (wordInLine found column)
  | none => ""

end LineScript.Editor
