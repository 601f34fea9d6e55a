/-
Module: LineScript.Value
Purpose: Runtime values, the declared types of variables, and what a variable accepts.
Trusted boundary: none
Main exports: VarType, ValueKind, Value, Value.display?, Value.isEqual, VarType.convert
-/
import LineScript.Number.Arithmetic
import LineScript.Number.Layout
import LineScript.Text.Quoted

/-!
A value is null, a truth value, a number or a text. A character is a text of length one; there is no
separate kind of value for it. A variable is declared with one of five types, and everything stored
in it passes through `VarType.convert`, so that it only ever holds values of its type.
-/

namespace LineScript

/-- The declared type of a variable. -/
inductive VarType where
  | int
  | float
  | bool
  | char
  | string
  deriving DecidableEq, Repr, Inhabited

namespace VarType

/-- The word that names a type. -/
def label : VarType → String
  | .int => "INT"
  | .float => "FLOAT"
  | .bool => "BOOL"
  | .char => "CHAR"
  | .string => "STRING"

/-- All types. -/
def all : List VarType := [.int, .float, .bool, .char, .string]

/-- The type named by a word. -/
def ofLabel? (word : String) : Option VarType :=
  all.find? fun type => type.label == word

end VarType

/-- The kind of a value, as messages name it. -/
inductive ValueKind where
  | null
  | bool
  | int
  | float
  | char
  | string
  /-- The kind of what a variable holds that was never given a value. -/
  | missing
  deriving DecidableEq, Repr, Inhabited

namespace ValueKind

/-- The word that names a kind. -/
def label : ValueKind → String
  | .null => "NULL"
  | .bool => "BOOL"
  | .int => "INT"
  | .float => "FLOAT"
  | .char => "CHAR"
  | .string => "STRING"
  | .missing => "_Uninitialized"

/-- All kinds. -/
def all : List ValueKind := [.null, .bool, .int, .float, .char, .string, .missing]

/-- The kind named by a word. -/
def ofLabel? (word : String) : Option ValueKind :=
  all.find? fun kind => kind.label == word

end ValueKind

/-- A runtime value. -/
inductive Value where
  | null
  | bool (truth : Bool)
  | int (number : Int)
  | float (number : Float)
  | text (content : String)
  deriving DecidableEq, Repr, Inhabited

/-- The spelling of a truth value. -/
def boolText (truth : Bool) : String :=
  if truth then "TRUE" else "FALSE"

/-- The truth value that a text spells. -/
def truthSpelled? (content : String) : Option Bool :=
  if content = boolText true then some true
  else if content = boolText false then some false
  else none

/-- The most digits an integer may have in a source text or in print. -/
def digitLimit : Nat := 4300

/-- The least magnitude with too many digits for print. -/
def leastUnprintable : Nat := Nat.pow 10 digitLimit

/-- A number as a value. -/
def Number.toValue : Number → Value
  | .int number => .int number
  | .float number => .float number

namespace Value

/-- The kind of a value. -/
def kind : Value → ValueKind
  | .null => .null
  | .bool _ => .bool
  | .int _ => .int
  | .float _ => .float
  | .text content => if content.length = 1 then .char else .string

/-- The number that a value is. Truth values are no numbers. -/
def number? : Value → Option Number
  | .int number => some (.int number)
  | .float number => some (.float number)
  | _ => none

/-- A value whose text can be written: all but integers with too many digits. -/
def isPrintable : Value → Bool
  | .int number => number.natAbs < leastUnprintable
  | _ => true

/-- The text of a value, whatever the number of its digits. -/
def display : Value → String
  | .null => "NULL"
  | .bool truth => boolText truth
  | .int number => Number.intText number
  | .float number => Number.floatText Number.printedStyle number
  | .text content => content

/-- The text of a value, if it can be written. -/
def display? (value : Value) : Option String :=
  if value.isPrintable then some value.display else none

/-- A value as a dump of tokens shows it. -/
def dump : Value → String
  | .null => "None"
  | .bool truth => if truth then "True" else "False"
  | .int number => Number.intText number
  | .float number => Number.floatText Number.literalStyle number
  | .text content => quoted content

/-- Equality of values. Numbers of both kinds are compared by place, and a truth value equals the
text that spells it. -/
def isEqual (left right : Value) : Bool :=
  match left, right with
  | .null, .null => true
  | .bool one, .bool two => one == two
  | .bool truth, .text content => content == boolText truth
  | .text content, .bool truth => content == boolText truth
  | .text one, .text two => one == two
  | one, two =>
    match one.number?, two.number? with
    | some first, some second => first.isEqual second
    | _, _ => false

end Value

namespace VarType

/-- Why a value cannot be stored in a variable. -/
inductive Refusal where
  /-- The value is of another type. -/
  | mismatch
  /-- The value is an integer with no double near it. -/
  | tooLargeForFloat
  deriving DecidableEq, Repr, Inhabited

/-- The value that a variable of the given type stores when it is given a value. An integer becomes
a double in a FLOAT variable, and a spelled truth value becomes one in a BOOL variable. -/
def convert : VarType → Value → Except Refusal Value
  | .int, .int number => .ok (.int number)
  | .float, .float number => .ok (.float number)
  | .float, .int number =>
    match Number.ofInt? number with
    | some converted => .ok (.float converted)
    | none => .error .tooLargeForFloat
  | .bool, .bool truth => .ok (.bool truth)
  | .bool, .text content =>
    match truthSpelled? content with
    | some truth => .ok (.bool truth)
    | none => .error .mismatch
  | .char, .text content =>
    if content.length = 1 then .ok (.text content) else .error .mismatch
  | .string, .text content => .ok (.text content)
  | _, _ => .error .mismatch

end VarType

end LineScript
