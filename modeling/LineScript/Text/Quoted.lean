/-
Module: LineScript.Text.Quoted
Purpose: The quoted form in which messages and dumps show a text.
Trusted boundary: none
Main exports: hexDigits, encodeChar, quoteMark, quoted
-/
import LineScript.Text.Printable

/-!
A quoted text stands between single quotes, or between double quotes when it holds a single quote
and no double quote. Inside, the backslash and the quote in use are marked by a backslash, line
breaks and tabs have short escapes, and any other character without a visible shape is written by
its code point in two, four or eight hexadecimal digits. So a quoted text always fits on one line.
-/

namespace LineScript.Text.Quoted

/-- The lower-case hexadecimal digit of a value below sixteen. -/
def hexDigit (value : Nat) : Char :=
  Nat.digitChar (value % 16)

/-- A number in exactly the given count of hexadecimal digits, the most significant first. -/
def hexDigits : Nat → Nat → List Char
  | 0, _ => []
  | count + 1, value => hexDigits count (value / 16) ++ [hexDigit value]

/-- The code point escape of a character: two, four or eight digits, the fewest that suffice. -/
def codePointEscape (char : Char) : List Char :=
  if char.toNat < 0x100 then '\\' :: 'x' :: hexDigits 2 char.toNat
  else if char.toNat < 0x10000 then '\\' :: 'u' :: hexDigits 4 char.toNat
  else '\\' :: 'U' :: hexDigits 8 char.toNat

/-- How one character is written between the given quotes. -/
def encodeChar (mark char : Char) : List Char :=
  if char = '\\' ∨ char = mark then ['\\', char]
  else if char = '\n' then ['\\', 'n']
  else if char = '\r' then ['\\', 'r']
  else if char = '\t' then ['\\', 't']
  else if isPrintable char then [char]
  else codePointEscape char

/-- The quote around a text: a double quote only for a text with a single quote and no double
quote. -/
def quoteMark (text : List Char) : Char :=
  if text.contains '\'' && !text.contains '"' then '"' else '\''

/-- The quoted form of a text. -/
def encode (text : List Char) : List Char :=
  let mark := quoteMark text
  mark :: (text.flatMap (encodeChar mark) ++ [mark])

end LineScript.Text.Quoted

namespace LineScript

/-- The quoted form of a text, as shown in messages and dumps. -/
def quoted (text : String) : String :=
  String.ofList (Text.Quoted.encode text.toList)

end LineScript
