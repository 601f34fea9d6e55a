/-
Module: LineScript.Content
Purpose: What a variable holds, which need not be a value.
Trusted boundary: none
Main exports: Content, Content.kind, Content.isEqual, VarType.accept
-/
import LineScript.Value

/-!
A variable that was declared and not given a value yet holds nothing. What may be read off a value
may also be read off a content: a missing one is of a kind of its own, is neither a number nor a
truth value, equals only another missing one, and no variable accepts it. Evaluation never gives a
missing content, since reading such a variable is an error; the operations are defined for it all
the same, so that they are defined for whatever a variable may hold.
-/

namespace LineScript

/-- What a variable holds: a value, or nothing as long as it was given none. -/
abbrev Content := Option Value

namespace Content

/-- The kind of a content. -/
def kind : Content → ValueKind
  | some value => value.kind
  | none => .missing

/-- The number that a content is. -/
def number? : Content → Option Number
  | some value => value.number?
  | none => none

/-- The text of a content, if it can be written. -/
def display? : Content → Option String
  | some value => value.display?
  | none => some "UNINITIALIZED"

/-- Equality of contents. -/
def isEqual : Content → Content → Bool
  | some left, some right => left.isEqual right
  | none, none => true
  | _, _ => false

/-- What may be read off a value may be read off it as a content. -/
@[simp] theorem kind_some (value : Value) : kind (some value) = value.kind := rfl

@[simp] theorem number?_some (value : Value) : number? (some value) = value.number? := rfl

@[simp] theorem display?_some (value : Value) : display? (some value) = value.display? := rfl

@[simp] theorem isEqual_some (left right : Value) :
    isEqual (some left) (some right) = left.isEqual right := rfl

end Content

/-- The value that a variable of the given type stores when it is given a content. -/
def VarType.accept : VarType → Content → Except VarType.Refusal Value
  | type, some value => type.convert value
  | _, none => .error .mismatch

end LineScript
