/-
Module: LineScript.Escape
Purpose: Escape sequences, and the bodies of string literals that hold them.
Trusted boundary: none
Main exports: meaning, decode, body, broken, Flaw, flaw, complaint
-/

/-!
An escape sequence is one character other than a newline between square brackets. The body of a
string literal is a run of units, each an escape sequence or a character other than a quote, an
opening bracket and a newline.
-/

namespace LineScript.Escape

/-- The character that an escape sequence with the given letter denotes. A letter without a meaning
of its own denotes itself. -/
def meaning (letter : Char) : Char :=
  if letter = 'n' then '\n'
  else if letter = 't' then '\t'
  else if letter = '$' then '\r'
  else letter

/-- Replaces every escape sequence of a text by the character it denotes, from left to right. -/
def decode : List Char → List Char
  | '[' :: letter :: ']' :: rest =>
    if letter = '\n' then '[' :: decode (letter :: ']' :: rest)
    else meaning letter :: decode rest
  | char :: rest => char :: decode rest
  | [] => []

/-- A character that is a unit of a string by itself. -/
def isPlain (char : Char) : Bool :=
  char != '"' && char != '[' && char != '\n'

/-- The longest run of units at the start of a text, and what follows it. -/
def body : List Char → List Char × List Char
  | '[' :: letter :: ']' :: rest =>
    if letter = '\n' then ([], '[' :: letter :: ']' :: rest)
    else
      let (taken, after) := body rest
      ('[' :: letter :: ']' :: taken, after)
  | char :: rest =>
    if isPlain char then
      let (taken, after) := body rest
      (char :: taken, after)
    else ([], char :: rest)
  | [] => ([], [])

/-- The part of a broken escape sequence that is rejected along with its string: the bracket and
the character after it on its line. -/
def broken : List Char → List Char × List Char
  | '[' :: letter :: rest =>
    if letter = '\n' then (['['], letter :: rest) else (['[', letter], rest)
  | '[' :: [] => (['['], [])
  | text => ([], text)

/-- Where the search for what is wrong with a string literal ends. -/
inductive Flaw where
  /-- At a quote outside all escape sequences. -/
  | quote
  /-- At an opening bracket with nothing behind it. -/
  | cutOff
  /-- At an opening bracket whose escape sequence is not closed behind its letter. -/
  | unclosed
  /-- At the end of the text. -/
  | textEnd
  deriving DecidableEq, Repr, Inhabited

/-- What is said about a flaw. -/
def Flaw.message : Flaw → String
  | .quote | .textEnd => "Unterminated string"
  | .cutOff => "Unterminated string inside escape sequence"
  | .unclosed => "Expected ']' to close escape sequence"

/-- The flaw of a string literal, looked for from left to right behind its opening quote. -/
def flaw : List Char → Flaw
  | '"' :: _ => .quote
  | '[' :: [] => .cutOff
  | '[' :: _ :: ']' :: rest => flaw rest
  | '[' :: _ :: _ => .unclosed
  | _ :: rest => flaw rest
  | [] => .textEnd

/-- Why a string literal is malformed, told from the text after its opening quote. -/
def complaint (text : List Char) : String :=
  (flaw text).message

end LineScript.Escape
