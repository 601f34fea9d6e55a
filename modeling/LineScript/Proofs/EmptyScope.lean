/-
Module: LineScript.Proofs.EmptyScope
Purpose: A scope in which nothing is declared makes no difference.
Trusted boundary: none
Main exports: PadsIn, Scopes.Pads, Machine.Pads, Run.inScope_eq_self
-/
import LineScript.Proofs.RunSimulation

/-!
A scope is visible only through the variables declared in it. Two machines that differ by an empty
scope among the others run every action alike, as long as nothing is declared in just that scope.
Hence an action that declares nothing in the scope it is run in may be run in a scope of its own or
not: evaluating an expression is such an action, and so are running a block and repeating them.
-/

namespace LineScript

namespace Scopes

/-- The second list of scopes is the first one with an empty scope behind the innermost scopes, as
many of them as the depth says. -/
inductive PadsIn : Nat → List Scope → List Scope → Prop where
  | here (scope : Scope) (outer : List Scope) :
      PadsIn 0 (scope :: outer) (Scope.empty :: scope :: outer)
  | inside {depth : Nat} {scopes padded : List Scope} (scope : Scope)
      (pads : PadsIn depth scopes padded) : PadsIn (depth + 1) (scope :: scopes) (scope :: padded)

/-- The second scopes are the first ones with an empty scope at a depth. -/
def Pads (depth : Nat) (scopes padded : Scopes) : Prop :=
  PadsIn depth scopes.toList padded.toList

variable {depth : Nat} {scopes padded : Scopes} {list paddedList : List Scope}

/-- An empty scope hides nothing. -/
theorem findIn_empty (name : String) (outer : List Scope) :
    findIn name (Scope.empty :: outer) = findIn name outer := rfl

/-- Nothing is bound anew in an empty scope. -/
theorem rebindIn_empty (name : String) (binding : Binding) (outer : List Scope) :
    rebindIn name binding (Scope.empty :: outer) =
      Scope.empty :: rebindIn name binding outer := rfl

/-- A name means the same with an empty scope between the others. -/
theorem PadsIn.findIn (pads : PadsIn depth list paddedList) (name : String) :
    findIn name paddedList = Scopes.findIn name list := by
  induction pads with
  | here scope outer => exact findIn_empty name (scope :: outer)
  | inside scope pads inductionHypothesis =>
    unfold Scopes.findIn
    rw [inductionHypothesis]

/-- Binding a variable anew keeps the empty scope where it is. -/
theorem PadsIn.rebindIn (pads : PadsIn depth list paddedList) (name : String)
    (binding : Binding) :
    PadsIn depth (rebindIn name binding list) (Scopes.rebindIn name binding paddedList) := by
  induction pads with
  | here scope outer =>
    rw [rebindIn_empty]
    unfold Scopes.rebindIn
    split
    · exact .here _ _
    · exact .here _ _
  | inside scope pads inductionHypothesis =>
    unfold Scopes.rebindIn
    split
    · exact .inside _ pads
    · exact .inside _ inductionHypothesis

theorem Pads.lookup (pads : Pads depth scopes padded) (name : Token) :
    padded.lookup name = scopes.lookup name := by
  unfold Scopes.lookup Scopes.find?
  rw [PadsIn.findIn pads name.lexeme]

theorem Pads.read (pads : Pads depth scopes padded) (name : Token) :
    padded.read name = scopes.read name := by
  unfold Scopes.read
  rw [pads.lookup name]

/-- Assigning does the same with and without the empty scope, which stays where it is. -/
theorem Pads.assign (pads : Pads depth scopes padded) (name : Token) (given : Content) :
    (∃ stored next paddedNext, scopes.assign name given = .ok (stored, next) ∧
      padded.assign name given = .ok (stored, paddedNext) ∧ Pads depth next paddedNext) ∨
    ∃ error, scopes.assign name given = .error error ∧ padded.assign name given = .error error := by
  rw [assign_eq, assign_eq, pads.lookup name]
  split
  · rename_i error _
    exact .inr ⟨error, rfl, rfl⟩
  · split
    · rename_i error _
      exact .inr ⟨error, rfl, rfl⟩
    · refine .inl ⟨_, _, _, rfl, rfl, ?_⟩
      unfold Pads
      rw [toList_rebind, toList_rebind]
      exact PadsIn.rebindIn pads _ _

/-- Declaring does the same, too, as long as the empty scope is not the innermost one. -/
theorem Pads.declare (pads : Pads (depth + 1) scopes padded) (name : Token) (type : VarType)
    (given : Content) :
    (∃ next paddedNext, scopes.declare name type given = .ok next ∧
      padded.declare name type given = .ok paddedNext ∧ Pads (depth + 1) next paddedNext) ∨
    ∃ error, scopes.declare name type given = .error error ∧
      padded.declare name type given = .error error := by
  obtain ⟨innermost, enclosing⟩ := scopes
  obtain ⟨mirrored, paddedEnclosing⟩ := padded
  cases pads with
  | inside _ pads =>
    rw [declare_eq, declare_eq]
    split
    · exact .inl ⟨_, _, rfl, rfl, .inside _ pads⟩
    · split
      · rename_i error _
        exact .inr ⟨error, rfl, rfl⟩
      · exact .inl ⟨_, _, rfl, rfl, .inside _ pads⟩

/-- Opening a scope puts the empty scope one further away. -/
theorem Pads.push (pads : Pads depth scopes padded) : Pads (depth + 1) scopes.push padded.push :=
  .inside Scope.empty pads

/-- Closing a scope brings it one nearer. -/
theorem Pads.pop (pads : Pads (depth + 1) scopes padded) : Pads depth scopes.pop padded.pop := by
  obtain ⟨innermost, enclosing⟩ := scopes
  obtain ⟨mirrored, paddedEnclosing⟩ := padded
  cases pads with
  | inside _ pads =>
    cases pads with
    | here scope outer => exact .here scope outer
    | inside scope pads => exact .inside scope pads

/-- A scope that has just been opened is an empty one. -/
theorem pads_push (scopes : Scopes) : Pads 0 scopes scopes.push :=
  .here scopes.innermost scopes.enclosing

/-- Closing it gives back what there was without it. -/
theorem Pads.pop_eq (pads : Pads 0 scopes padded) : padded.pop = scopes := by
  obtain ⟨innermost, enclosing⟩ := scopes
  obtain ⟨mirrored, paddedEnclosing⟩ := padded
  cases pads
  rfl

end Scopes

/-- The second machine is the first one with an empty scope at a depth. -/
structure Machine.Pads (depth : Nat) (machine padded : Machine) : Prop where
  scopes : machine.scopes.Pads depth padded.scopes
  input : machine.input = padded.input
  output : machine.output = padded.output

namespace Machine

/-- Runs with and without an empty scope end alike, with the empty scope still in its place. -/
theorem pads_simulation : Simulation Pads where
  read depth name := by
    intro machine padded start
    rw [Run.read_apply, Run.read_apply, start.scopes.read name]
    split
    · exact .ok _ start
    · exact .error _ start
  assign depth name value := by
    intro machine padded start
    rw [Run.assign_apply, Run.assign_apply]
    -- The store finds the same binding, as the scope that is extra binds nothing.
    obtain ⟨stored, next, paddedNext, first, second, pads⟩ | ⟨error, first, second⟩ :=
      start.scopes.assign name (some value)
    · rw [first, second]
      exact .ok () ⟨pads, start.input, start.output⟩
    · rw [first, second]
      exact .error _ start
  declare depth name type given := by
    intro machine padded start
    rw [Run.declare_apply, Run.declare_apply]
    obtain ⟨next, paddedNext, first, second, pads⟩ | ⟨error, first, second⟩ :=
      start.scopes.declare name type given
    · rw [first, second]
      exact .ok () ⟨pads, start.input, start.output⟩
    · rw [first, second]
      exact .error _ start
  write depth text := by
    rintro machine padded ⟨pads, input, output⟩
    exact .ok () ⟨pads, input, congrArg (· ++ text) output⟩
  nextLine depth token := by
    rintro machine padded ⟨pads, input, output⟩
    unfold Run.nextLine
    rw [input]
    split
    · exact .error _ ⟨pads, input, output⟩
    · exact .ok _ ⟨pads, rfl, output⟩
  push start := ⟨start.scopes.push, start.input, start.output⟩
  pop start := ⟨start.scopes.pop, start.input, start.output⟩

/-- Closing the empty scope gives back the machine that ran without it. -/
theorem Pads.pop_eq {machine padded : Machine} (pads : Pads 0 machine padded) :
    { padded with scopes := padded.scopes.pop } = machine := by
  rw [pads.scopes.pop_eq, ← pads.input, ← pads.output]

end Machine

/-- An action that does not see an empty scope around it may be run in a scope of its own. -/
theorem Run.inScope_eq_self {α : Type} {action : Run α}
    (simulated : Simulated False (Machine.Pads 0) action action) : inScope action = action := by
  funext machine
  have start : machine.Pads 0 { machine with scopes := machine.scopes.push } :=
    ⟨Scopes.pads_push machine.scopes, rfl, rfl⟩
  have ending := simulated machine _ start
  unfold inScope
  generalize action { machine with scopes := machine.scopes.push } = inside at ending ⊢
  generalize action machine = outside at ending ⊢
  cases ending with
  | ok value ends => exact congrArg (EStateM.Result.ok value) ends.pop_eq
  | error stop ends => exact congrArg (EStateM.Result.error stop) ends.pop_eq
  | unfinished impossible => exact impossible.elim

end LineScript
