/-
Module: LineScript.Proofs.SuccessiveStores
Purpose: Values that are stored one after the other, up to the first one that is refused.
Trusted boundary: none
Main exports: Stores, Refuses, GivenInnermost, ReceivedEach, Stores.receivedEach,
  assign_eq_error_congr
-/
import LineScript.Proofs.StoreHistory

/-!
A line of input and a chain of assignments store several values one after the other. What has been
stored stays stored when a later value is refused. Each store reaches the innermost variable of one
name and leaves all others as they are, those that it hides included, and no store changes a type.
Whether a value is refused, and with which error, depends on the types alone, so it does not depend
on what was stored before.
-/

namespace LineScript

namespace Scopes

/-- Values are stored one after the other, each in the variable that its name means by then. -/
inductive Stores : List (Token × Value) → Scopes → Scopes → Prop where
  | nil (scopes : Scopes) : Stores [] scopes scopes
  | cons {name : Token} {value stored : Value} {rest : List (Token × Value)}
      {before middle after : Scopes}
      (first : before.assign name (some value) = .ok (stored, middle))
      (others : Stores rest middle after) : Stores ((name, value) :: rest) before after

/-- Values are stored one after the other up to the first one that is refused, with the error. -/
def Refuses (pairs : List (Token × Value)) (before after : Scopes) (error : RuntimeError) : Prop :=
  ∃ front name value rest, pairs = front ++ (name, value) :: rest ∧ Stores front before after ∧
    after.assign name (some value) = .error error

variable {pairs more : List (Token × Value)} {before middle after : Scopes} {error : RuntimeError}
  {name : Token} {value stored : Value}

theorem Stores.append (first : Stores pairs before middle) (second : Stores more middle after) :
    Stores (pairs ++ more) before after := by
  induction first with
  | nil => exact second
  | cons assigned _ inductionHypothesis => exact .cons assigned (inductionHypothesis second)

theorem Stores.concat (first : Stores pairs before middle)
    (assigned : middle.assign name (some value) = .ok (stored, after)) :
    Stores (pairs ++ [(name, value)]) before after :=
  first.append (.cons assigned (.nil after))

/-- Either all values are stored, or one of them is the first to be refused. -/
theorem stores_or_refuses (pairs : List (Token × Value)) (before : Scopes) :
    (∃ after, Stores pairs before after) ∨ ∃ after error, Refuses pairs before after error := by
  induction pairs generalizing before with
  | nil => exact .inl ⟨before, .nil before⟩
  | cons pair rest inductionHypothesis =>
    obtain ⟨name, value⟩ := pair
    cases assigned : before.assign name (some value) with
    | error error => exact .inr ⟨before, error, [], name, value, rest, rfl, .nil before, assigned⟩
    | ok result =>
      obtain ⟨stored, middle⟩ := result
      rcases inductionHypothesis middle with ⟨after, stores⟩ | ⟨after, error, refuses⟩
      · exact .inl ⟨after, .cons assigned stores⟩
      · obtain ⟨front, refused, given, behind, rfl, stores, failed⟩ := refuses
        exact .inr ⟨after, error, (name, value) :: front, refused, given, behind, rfl,
          .cons assigned stores, failed⟩

end Scopes

/-! ### Running the stores -/

namespace Run

open Scopes

variable {pairs : List (Token × Value)} {machine : Machine} {after : Scopes} {error : RuntimeError}

theorem assignEach_of_stores (stores : Stores pairs machine.scopes after) :
    assignEach pairs machine = .ok () { machine with scopes := after } := by
  generalize start : machine.scopes = before at stores
  induction stores generalizing machine with
  | nil scopes =>
    subst start
    rfl
  | cons assigned _ inductionHypothesis =>
    subst start
    rw [assignEach, Action.bind_apply, assign_apply, assigned]
    exact inductionHypothesis rfl

theorem assignEach_of_refuses (refuses : Refuses pairs machine.scopes after error) :
    assignEach pairs machine = .error (.error error) { machine with scopes := after } := by
  obtain ⟨front, name, value, rest, rfl, stores, failed⟩ := refuses
  generalize start : machine.scopes = before at stores
  induction stores generalizing machine with
  | nil scopes =>
    subst start
    rw [List.nil_append, assignEach, Action.bind_apply, assign_apply, failed]
  | cons assigned _ inductionHypothesis =>
    subst start
    rw [List.cons_append, assignEach, Action.bind_apply, assign_apply, assigned]
    exact inductionHypothesis failed rfl

end Run

/-! ### The variables of one name -/

namespace Scopes

variable {before middle after : Scopes} {name : Token} {value stored : Value} {error : RuntimeError}

/-- What the scopes bind a name to, from the inside to the outside. -/
def layers (scopes : Scopes) (name : String) : List (Option Binding) :=
  scopes.toList.map (·.find? name)

theorem find?_eq_layers (scopes : Scopes) (name : String) :
    scopes.find? name = (scopes.layers name).findSome? id := by
  have general : ∀ list : List Scope,
      findIn name list = (list.map (·.find? name)).findSome? id := by
    intro list
    induction list with
    | nil => rfl
    | cons scope rest inductionHypothesis =>
      rw [findIn, List.map_cons, List.findSome?_cons, inductionHypothesis]
      cases scope.find? name <;> rfl
  exact general scopes.toList

/-- The innermost variable of a name has been given the value, converted to a value of its type. -/
def GivenInnermost (value : Value) (before after : List (Option Binding)) : Prop :=
  ∃ depth binding converted outer, before = List.replicate depth none ++ some binding :: outer ∧
    binding.type.convert value = .ok converted ∧ binding.type.admits converted ∧
    after = List.replicate depth none ++ some ⟨binding.type, some converted⟩ :: outer

theorem givenInnermost_of_assign
    (assigned : before.assign name (some value) = .ok (stored, after)) :
    GivenInnermost value (before.layers name.lexeme) (after.layers name.lexeme) := by
  obtain ⟨inner, scope, outer, binding, whole, rebound, absent, here, converted⟩ :=
    exists_of_assign assigned
  have hidden : inner.map (·.find? name.lexeme) = List.replicate inner.length none :=
    List.map_eq_replicate_iff.mpr absent
  refine ⟨inner.length, binding, stored, outer.map (·.find? name.lexeme), ?_, converted,
    VarType.admits_of_convert converted, ?_⟩
  · rw [layers, whole, List.map_append, List.map_cons, hidden, here]
  · rw [layers, rebound, List.map_append, List.map_cons, hidden, Scope.find?_bind_self]

/-- The variables of other names stay as they are. -/
theorem layers_of_assign {other : String} (different : other ≠ name.lexeme)
    (assigned : before.assign name (some value) = .ok (stored, after)) :
    after.layers other = before.layers other := by
  obtain ⟨inner, scope, outer, binding, whole, rebound, -⟩ := exists_of_assign assigned
  rw [layers, layers, whole, rebound, List.map_append, List.map_append, List.map_cons,
    List.map_cons, Scope.find?_bind_of_ne different]

namespace GivenInnermost

variable {first second third : List (Option Binding)}

/-- Below the same number of scopes that do not bind a name, there is the same variable. -/
theorem replicate_append_inj {depth other : Nat} {binding found : Binding}
    {outer more : List (Option Binding)}
    (same : List.replicate depth none ++ some binding :: outer =
      List.replicate other none ++ some found :: more) :
    depth = other ∧ binding = found ∧ outer = more := by
  induction depth generalizing other with
  | zero =>
    cases other with
    | zero => simpa using same
    | succ other => simp [List.replicate_succ] at same
  | succ depth inductionHypothesis =>
    cases other with
    | zero => simp [List.replicate_succ] at same
    | succ other =>
      simp only [List.replicate_succ, List.cons_append, List.cons.injEq, true_and] at same
      simpa using inductionHypothesis same

/-- A variable to which a value is given after another one has been given the later one. -/
theorem trans {earlier : Value} (once : GivenInnermost earlier first second)
    (twice : GivenInnermost value second third) : GivenInnermost value first third := by
  obtain ⟨depth, binding, converted, outer, rfl, -, -, rfl⟩ := once
  obtain ⟨other, found, again, more, same, later, admitted, rfl⟩ := twice
  obtain ⟨rfl, rfl, rfl⟩ := replicate_append_inj same
  exact ⟨depth, binding, again, outer, rfl, later, admitted, rfl⟩

theorem type_findSome? (given : GivenInnermost value first second) :
    (second.findSome? id).map Binding.type = (first.findSome? id).map Binding.type := by
  obtain ⟨depth, binding, converted, outer, rfl, -, -, rfl⟩ := given
  simp [List.findSome?_append]

end GivenInnermost

/-- An assignment changes the type of no variable. -/
theorem type_find?_of_assign (assigned : before.assign name (some value) = .ok (stored, after))
    (other : String) :
    (after.find? other).map Binding.type = (before.find? other).map Binding.type := by
  rw [find?_eq_layers, find?_eq_layers]
  by_cases same : other = name.lexeme
  · rw [same]
    exact (givenInnermost_of_assign assigned).type_findSome?
  · rw [layers_of_assign same assigned]

/-- The variables that the names mean have been given the values, each converted to its own type. Of
several values for one name the last one counts. Those that are hidden by them and those of other
names are as before. -/
structure ReceivedEach (pairs : List (Token × Value)) (before after : Scopes) : Prop where
  given : ∀ front name value later, pairs = front ++ (name, value) :: later →
    (∀ pair ∈ later, pair.1.lexeme ≠ name.lexeme) →
      GivenInnermost value (before.layers name.lexeme) (after.layers name.lexeme)
  others : ∀ other, (∀ pair ∈ pairs, pair.1.lexeme ≠ other) →
    after.layers other = before.layers other

/-- What is given first stays unless the same name is given something later. -/
theorem ReceivedEach.cons {pairs : List (Token × Value)}
    (assigned : before.assign name (some value) = .ok (stored, middle))
    (received : ReceivedEach pairs middle after) :
    ReceivedEach ((name, value) :: pairs) before after := by
  have once := givenInnermost_of_assign assigned
  constructor
  · intro front other given later split silent
    cases front with
    | nil =>
      obtain ⟨⟨rfl, rfl⟩, rfl⟩ := by simpa using split
      rwa [received.others name.lexeme silent]
    | cons first front =>
      obtain ⟨rfl, rfl⟩ := List.cons.inj split
      have onward := received.given front other given later rfl silent
      by_cases same : other.lexeme = name.lexeme
      · rw [same] at onward ⊢
        exact once.trans onward
      · rwa [layers_of_assign same assigned] at onward
  · intro other silent
    obtain ⟨first, rest⟩ := List.forall_mem_cons.mp silent
    rw [received.others other rest, layers_of_assign first.symm assigned]

/-- Values that are stored one after the other are received. -/
theorem Stores.receivedEach {pairs : List (Token × Value)} (stores : Stores pairs before after) :
    ReceivedEach pairs before after := by
  induction stores with
  | nil scopes => exact ⟨by simp, fun _ _ => rfl⟩
  | cons assigned _ inductionHypothesis => exact inductionHypothesis.cons assigned

/-- Stored values change the type of no variable. -/
theorem Stores.type_find? {pairs : List (Token × Value)} (stores : Stores pairs before after)
    (other : String) :
    (after.find? other).map Binding.type = (before.find? other).map Binding.type := by
  induction stores with
  | nil scopes => rfl
  | cons assigned _ inductionHypothesis =>
    rw [inductionHypothesis, type_find?_of_assign assigned]

/-- An assignment fails according to the type of the variable alone. -/
theorem assign_eq_error_congr {given : Content}
    (same : (after.find? name.lexeme).map Binding.type =
      (before.find? name.lexeme).map Binding.type) :
    after.assign name given = .error error ↔ before.assign name given = .error error := by
  rw [assign_eq, assign_eq, lookup, lookup]
  cases foundAfter : after.find? name.lexeme with
  | none =>
    cases foundBefore : before.find? name.lexeme with
    | none => rfl
    | some binding => simp [foundAfter, foundBefore] at same
  | some binding =>
    cases foundBefore : before.find? name.lexeme with
    | none => simp [foundAfter, foundBefore] at same
    | some old =>
      simp only [foundAfter, foundBefore, Option.map_some, Option.some.injEq] at same
      dsimp only
      rw [same]
      cases old.type.store name.lexeme given (some name) <;> simp

end Scopes

end LineScript
