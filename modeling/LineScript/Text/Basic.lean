/-
Module: LineScript.Text.Basic
Purpose: Digits, blanks, lines and columns of texts.
Trusted boundary: the decimal digits, the blanks and the line boundaries of the character tables in
  use, written out as the code points they take.
Main exports: isDigit, digitsValue, trim, nextLine, dropLineEnd, unifyNewlines, splitLines, units
-/

/-!
The language treats single characters of a text in four ways. It reads decimal digits of every
script, trims blanks off the ends of a line, cuts texts into lines by one of three rules, and counts
the columns of a document as an editor does.
-/

namespace LineScript.Text

/-! ### Digits

A number in a source text may be written with the decimal digits of any script. Each script keeps
its ten digits in one ascending run of code points, so a script is known by the code point of its
zero, and a character is a digit exactly when it stands less than ten places above some zero. -/

/-- The code points of the zeros of all scripts, in ascending order. -/
def digitZeros : List Nat := [
  0x30, 0x660, 0x6f0, 0x7c0, 0x966, 0x9e6, 0xa66, 0xae6, 0xb66, 0xbe6, 0xc66,
  0xce6, 0xd66, 0xde6, 0xe50, 0xed0, 0xf20, 0x1040, 0x1090, 0x17e0, 0x1810,
  0x1946, 0x19d0, 0x1a80, 0x1a90, 0x1b50, 0x1bb0, 0x1c40, 0x1c50, 0xa620,
  0xa8d0, 0xa900, 0xa9d0, 0xa9f0, 0xaa50, 0xabf0, 0xff10, 0x104a0, 0x10d30,
  0x11066, 0x110f0, 0x11136, 0x111d0, 0x112f0, 0x11450, 0x114d0, 0x11650,
  0x116c0, 0x11730, 0x118e0, 0x11950, 0x11c50, 0x11d50, 0x11da0, 0x16a60,
  0x16ac0, 0x16b50, 0x1d7ce, 0x1d7d8, 0x1d7e2, 0x1d7ec, 0x1d7f6, 0x1e140,
  0x1e2f0, 0x1e950, 0x1fbf0]

/-- The value of a decimal digit of any script. -/
def digitValue? (char : Char) : Option Nat :=
  (digitZeros.find? fun start => start ≤ char.toNat && char.toNat < start + 10).map fun start =>
    char.toNat - start

/-- A decimal digit of some script. -/
def isDigit (char : Char) : Bool :=
  (digitValue? char).isSome

/-- The number written by a run of digits, most significant first. Characters that are no digits
count as zeros. -/
def digitsValue (digits : List Char) : Nat :=
  digits.foldl (fun total char => 10 * total + (digitValue? char).getD 0) 0

/-- A digit is worth less than ten. -/
theorem digitValue?_lt_ten {char : Char} {value : Nat} (found : digitValue? char = some value) :
    value < 10 := by
  unfold digitValue? at found
  obtain ⟨start, picked, rfl⟩ := Option.map_eq_some_iff.mp found
  have inRun := List.find?_some picked
  simp only [Bool.and_eq_true, decide_eq_true_eq] at inRun
  omega

/-! ### Blanks

The interactive session recognises its commands on a line whose ends have been trimmed. Trimming
takes every character that separates words in any script, and the four information separators. -/

/-- The blank characters, as inclusive runs of code points. -/
def blankRuns : List (Nat × Nat) := [
  (0x9, 0xd), (0x1c, 0x20), (0x85, 0x85), (0xa0, 0xa0), (0x1680, 0x1680), (0x2000, 0x200a),
  (0x2028, 0x2029), (0x202f, 0x202f), (0x205f, 0x205f), (0x3000, 0x3000)]

/-- A character that trimming removes. -/
def isBlank (char : Char) : Bool :=
  blankRuns.any fun run => run.1 ≤ char.toNat && char.toNat ≤ run.2

/-- The text without the blanks at its two ends. -/
def trim (text : List Char) : List Char :=
  ((text.dropWhile isBlank).reverse.dropWhile isBlank).reverse

/-! ### Lines

Three rules about line ends are in use. Input for a running program is read line by line, where
only a newline ends a line. A script file may end its lines by a carriage return, a newline or both,
and all three are read as a newline. An editor's document is cut after every line boundary that any
convention knows. -/

/-- The next line of an input, its newline included if it has one, and the input after it. -/
def nextLine (text : List Char) : List Char × List Char :=
  match text.dropWhile (· != '\n') with
  | [] => (text, [])
  | newline :: rest => (text.takeWhile (· != '\n') ++ [newline], rest)

/-- A line without the newlines and carriage returns at its end. -/
def dropLineEnd (line : List Char) : List Char :=
  (line.reverse.dropWhile fun char => char == '\n' || char == '\r').reverse

/-- Reads every carriage return, with the newline after it if there is one, as one newline. -/
def unifyNewlines : List Char → List Char
  | [] => []
  | '\r' :: '\n' :: rest => '\n' :: unifyNewlines rest
  | '\r' :: rest => '\n' :: unifyNewlines rest
  | char :: rest => char :: unifyNewlines rest

/-- A character that ends a line of a document. -/
def isLineBoundary (char : Char) : Bool :=
  char ∈ ['\n', '\r', '\x0b', '\x0c', '\x1c', '\x1d', '\x1e', '\u0085', '\u2028', '\u2029']

/-- The lines of a document with their boundaries; a carriage return and the newline after it are
one boundary. The first argument holds the characters of the line begun so far, last one first. -/
def splitLinesFrom : List Char → List Char → List (List Char)
  | [], [] => []
  | begun, [] => [begun.reverse]
  | begun, '\r' :: '\n' :: rest => ('\n' :: '\r' :: begun).reverse :: splitLinesFrom [] rest
  | begun, char :: rest =>
    if isLineBoundary char then (char :: begun).reverse :: splitLinesFrom [] rest
    else splitLinesFrom (char :: begun) rest

/-- The lines of a document with their boundaries. -/
def splitLines (text : List Char) : List (List Char) :=
  splitLinesFrom [] text

/-! ### Columns

Editors count the columns of a line in sixteen-bit units: a character beyond the first plane takes
two of them, every other character one. -/

/-- How many sixteen-bit units a character takes. -/
def unitsOfChar (char : Char) : Nat :=
  if char.toNat < 0x10000 then 1 else 2

/-- How many sixteen-bit units a text takes. -/
def units (text : List Char) : Nat :=
  text.foldl (fun total char => total + unitsOfChar char) 0

/-- The count of leading characters that is walked to reach a column: characters are taken while
the units walked so far stay below it. -/
def charsBefore (column : Nat) : List Char → Nat
  | [] => 0
  | char :: rest => if column = 0 then 0 else charsBefore (column - unitsOfChar char) rest + 1

end LineScript.Text
