/-
Module: LineScript.Scopes
Purpose: Variables, and the nested scopes that hold them.
Trusted boundary: none
Main exports: Binding, Scope, Scopes, VarType.store, Scopes.declare, Scopes.read, Scopes.assign
-/
import LineScript.Content
import LineScript.RuntimeError

/-!
A scope binds names to variables. Scopes are nested: a name means the variable of the innermost
scope that binds it. A declaration always binds in the innermost scope, replacing what the scope
bound to the name before; an assignment changes the value of an existing variable and never binds.
Every value passes through the declared type of the variable that receives it. An operation that
fails gives no new scopes.
-/

namespace LineScript

/-- A declared variable. It has no value until it is given one. -/
structure Binding where
  type : VarType
  value : Content
  deriving DecidableEq, Repr, Inhabited

/-- The variables of one scope, in the order of their first declarations. -/
structure Scope where
  bindings : List (String × Binding)
  deriving DecidableEq, Repr, Inhabited

namespace Scope

/-- The scope without variables. -/
def empty : Scope := ⟨[]⟩

/-- The variable bound to a name. -/
def find? (scope : Scope) (name : String) : Option Binding :=
  scope.bindings.lookup name

/-- The bindings with a name bound anew, in the place of its old binding if it has one. -/
def bindIn (name : String) (binding : Binding) : List (String × Binding) → List (String × Binding)
  | [] => [(name, binding)]
  | entry :: rest =>
    if entry.1 = name then (name, binding) :: rest else entry :: bindIn name binding rest

/-- Binds a name anew. -/
def bind (scope : Scope) (name : String) (binding : Binding) : Scope :=
  ⟨bindIn name binding scope.bindings⟩

end Scope

/-- The error of storing a content in a variable that refuses it. -/
def VarType.refusalCause (name : String) (type : VarType) (given : Content) :
    VarType.Refusal → Cause
  | .mismatch => .typeMismatch name type (Content.kind given)
  | .tooLargeForFloat => .tooLargeForFloat

/-- The value that the named variable of the given type stores when it is given a content. -/
def VarType.store (type : VarType) (name : String) (given : Content) (token : Option Token) :
    Except RuntimeError Value :=
  match type.accept given with
  | .ok stored => .ok stored
  | .error refusal => .error ⟨type.refusalCause name given refusal, token⟩

/-- Nested scopes. -/
structure Scopes where
  innermost : Scope
  /-- The scopes around the innermost one, from the inside to the outside. -/
  enclosing : List Scope
  deriving DecidableEq, Repr, Inhabited

namespace Scopes

/-- A single scope without variables. -/
def root : Scopes := ⟨Scope.empty, []⟩

/-- All scopes, from the inside to the outside. -/
def toList (scopes : Scopes) : List Scope :=
  scopes.innermost :: scopes.enclosing

/-- The outermost scope. -/
def outermost (scopes : Scopes) : Scope :=
  scopes.enclosing.getLastD scopes.innermost

/-- Whether there is a single scope. -/
def isRoot (scopes : Scopes) : Bool :=
  scopes.enclosing.isEmpty

/-- Opens a scope inside all others. -/
def push (scopes : Scopes) : Scopes :=
  ⟨Scope.empty, scopes.toList⟩

/-- Closes the innermost scope. The outermost scope is never closed. -/
def pop (scopes : Scopes) : Scopes :=
  match scopes.enclosing with
  | [] => scopes
  | next :: rest => ⟨next, rest⟩

/-- The variable that a name means in some scopes. -/
def findIn (name : String) : List Scope → Option Binding
  | [] => none
  | scope :: rest =>
    match scope.find? name with
    | some binding => some binding
    | none => findIn name rest

/-- The variable that a name means. -/
def find? (scopes : Scopes) (name : String) : Option Binding :=
  findIn name scopes.toList

/-- Some scopes with the variable that a name means bound anew. -/
def rebindIn (name : String) (binding : Binding) : List Scope → List Scope
  | [] => []
  | scope :: rest =>
    match scope.find? name with
    | some _ => scope.bind name binding :: rest
    | none => scope :: rebindIn name binding rest

/-- Binds the variable that a name means anew, where it is bound. -/
def rebind (scopes : Scopes) (name : String) (binding : Binding) : Scopes :=
  match scopes.innermost.find? name with
  | some _ => ⟨scopes.innermost.bind name binding, scopes.enclosing⟩
  | none => ⟨scopes.innermost, rebindIn name binding scopes.enclosing⟩

/-- Declares a variable in the innermost scope, with a value or without one. -/
def declare (scopes : Scopes) (name : Token) (type : VarType) (given : Content) :
    Except RuntimeError Scopes := do
  let stored ← given.mapM fun value => type.store name.lexeme (some value) (some name)
  return ⟨scopes.innermost.bind name.lexeme ⟨type, stored⟩, scopes.enclosing⟩

/-- The variable that a name means, which must be declared. -/
def lookup (scopes : Scopes) (name : Token) : Except RuntimeError Binding :=
  match scopes.find? name.lexeme with
  | some binding => .ok binding
  | none => .error ⟨.undefinedVariable name.lexeme, some name⟩

/-- The value of a variable, which must have one. -/
def read (scopes : Scopes) (name : Token) : Except RuntimeError Value := do
  let binding ← scopes.lookup name
  match binding.value with
  | some value => .ok value
  | none => .error ⟨.uninitializedVariable name.lexeme, some name⟩

/-- Gives a variable a content. The result is the stored value with the new scopes. -/
def assign (scopes : Scopes) (name : Token) (given : Content) :
    Except RuntimeError (Value × Scopes) := do
  let binding ← scopes.lookup name
  let stored ← binding.type.store name.lexeme given (some name)
  return (stored, scopes.rebind name.lexeme ⟨binding.type, some stored⟩)

end Scopes

end LineScript
