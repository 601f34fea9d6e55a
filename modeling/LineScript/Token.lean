/-
Module: LineScript.Token
Purpose: Positions in a source text and the tokens of the language.
Trusted boundary: none
Main exports: Position, Position.after, TokenKind, TokenKind.ofWord, Token, Token.dump
-/
import LineScript.Value

/-!
A token is a piece of source text with its kind, the value it denotes if it is a literal, and the
position of its first character. Lines and columns are counted from one, columns in characters.
-/

namespace LineScript

/-- A place in a source text. -/
structure Position where
  line : Nat
  column : Nat
  deriving DecidableEq, Repr, Inhabited

namespace Position

/-- The place of the first character. -/
def start : Position := ⟨1, 1⟩

/-- The place after one character. -/
def next (position : Position) (char : Char) : Position :=
  if char = '\n' then ⟨position.line + 1, 1⟩ else ⟨position.line, position.column + 1⟩

/-- The place after a text. -/
def after (position : Position) (text : List Char) : Position :=
  text.foldl next position

@[simp] theorem after_nil (position : Position) : position.after [] = position := rfl

@[simp] theorem after_cons (position : Position) (char : Char) (text : List Char) :
    position.after (char :: text) = (position.next char).after text := rfl

/-- Behind a text made of two is behind the second of them. -/
theorem after_append (position : Position) (first second : List Char) :
    position.after (first ++ second) = (position.after first).after second :=
  List.foldl_append

end Position

/-- The kinds of tokens. -/
inductive TokenKind where
  | leftParen
  | rightParen
  | minus
  | plus
  | slash
  | star
  | modulo
  | concat
  | dollar
  | comma
  | colon
  | equal
  | equalEqual
  | notEqual
  | greater
  | greaterEqual
  | less
  | lessEqual
  | identifier
  | integerLiteral
  | floatLiteral
  | charLiteral
  | stringLiteral
  | typeName (type : VarType)
  | scriptWord
  | areaWord
  | startWord
  | endWord
  | declareWord
  | ifWord
  | elseWord
  | forWord
  | repeatWord
  | whenWord
  | andWord
  | orWord
  | notWord
  | nullWord
  | printWord
  | scanWord
  | trueWord
  | falseWord
  | newline
  | eof
  deriving DecidableEq, Repr, Inhabited

namespace TokenKind

/-- The name of a kind in dumps and messages. A keyword is named by its spelling. -/
def label : TokenKind → String
  | .leftParen => "LEFT_PAREN"
  | .rightParen => "RIGHT_PAREN"
  | .minus => "MINUS"
  | .plus => "PLUS"
  | .slash => "SLASH"
  | .star => "STAR"
  | .modulo => "MOD"
  | .concat => "CONCAT"
  | .dollar => "DOLLAR"
  | .comma => "COMMA"
  | .colon => "COLON"
  | .equal => "EQUAL"
  | .equalEqual => "EQUAL_EQUAL"
  | .notEqual => "NOT_EQUAL"
  | .greater => "GREATER"
  | .greaterEqual => "GREATER_EQUAL"
  | .less => "LESS"
  | .lessEqual => "LESS_EQUAL"
  | .identifier => "IDENTIFIER"
  | .integerLiteral => "INTEGER_LITERAL"
  | .floatLiteral => "FLOAT_LITERAL"
  | .charLiteral => "CHAR_LITERAL"
  | .stringLiteral => "STRING_LITERAL"
  | .typeName type => type.label
  | .scriptWord => "SCRIPT"
  | .areaWord => "AREA"
  | .startWord => "START"
  | .endWord => "END"
  | .declareWord => "DECLARE"
  | .ifWord => "IF"
  | .elseWord => "ELSE"
  | .forWord => "FOR"
  | .repeatWord => "REPEAT"
  | .whenWord => "WHEN"
  | .andWord => "AND"
  | .orWord => "OR"
  | .notWord => "NOT"
  | .nullWord => "NULL"
  | .printWord => "PRINT"
  | .scanWord => "SCAN"
  | .trueWord => "TRUE"
  | .falseWord => "FALSE"
  | .newline => "NEWLINE"
  | .eof => "EOF"

/-- The reserved words. A word is reserved in exactly its upper-case spelling. -/
def keywords : List TokenKind :=
  [TokenKind.scriptWord, .areaWord, .startWord, .endWord, .declareWord] ++
  VarType.all.map TokenKind.typeName ++
  [TokenKind.ifWord, .elseWord, .forWord, .repeatWord, .whenWord, .andWord, .orWord, .notWord,
    .nullWord, .printWord, .scanWord, .trueWord, .falseWord]

/-- The kinds that are no reserved words. -/
def others : List TokenKind :=
  [.leftParen, .rightParen, .minus, .plus, .slash, .star, .modulo, .concat, .dollar, .comma,
    .colon, .equal, .equalEqual, .notEqual, .greater, .greaterEqual, .less, .lessEqual,
    .identifier, .integerLiteral, .floatLiteral, .charLiteral, .stringLiteral, .newline, .eof]

/-- The kind with the given name. -/
def ofLabel? (name : String) : Option TokenKind :=
  (keywords ++ others).find? fun kind => kind.label == name

/-- The kind of a word: a reserved word's own, or an identifier. -/
def ofWord (word : String) : TokenKind :=
  (keywords.find? fun kind => kind.label == word).getD .identifier

/-- The value that a reserved word denotes by itself. -/
def wordLiteral? : TokenKind → Option Value
  | .trueWord => some (.bool true)
  | .falseWord => some (.bool false)
  | _ => none

end TokenKind

/-- A token of a source text. -/
structure Token where
  kind : TokenKind
  lexeme : String
  literal : Option Value
  position : Position
  deriving DecidableEq, Repr, Inhabited

namespace Token

/-- The token that ends every list of tokens. -/
def endAt (position : Position) : Token :=
  ⟨.eof, "", none, position⟩

/-- A token as a dump shows it. -/
def dump (token : Token) : String :=
  let shown :=
    match token.literal with
    | some value => value.dump ++ ", "
    | none => ""
  "Token(" ++ token.kind.label ++ ", " ++ quoted token.lexeme ++ ", " ++ shown ++
    "line=" ++ Number.natText token.position.line ++ ")"

end Token

end LineScript
