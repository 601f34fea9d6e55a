/-
Module: LineScript.Proofs.StoreTyping
Purpose: Every variable holds a value of its declared type, or none, at every moment of every run.
Trusted boundary: none
Main exports: VarType.admits, VarType.admits_of_convert, Scopes.WellTyped, Reachable,
  store_type_safe
-/
import LineScript.Proofs.Reaches
import LineScript.Session

/-!
Values enter a variable through `VarType.convert` alone, so what a variable holds is of its type.
The condition is on all variables of all scopes, also those that are hidden by others. It survives
declarations that replace a variable by one of another type, since type and content are replaced
together, and assignments, which keep the type that the content was converted to.
-/

namespace LineScript

/-- The values of a type. -/
def VarType.admits : VarType → Value → Bool
  | .int, .int _ => true
  | .float, .float _ => true
  | .bool, .bool _ => true
  | .char, .text content => content.length == 1
  | .string, .text _ => true
  | _, _ => false

/-- What a variable stores is of its type. -/
theorem VarType.admits_of_convert {type : VarType} {value stored : Value}
    (converted : type.convert value = .ok stored) : type.admits stored := by
  unfold convert at converted
  split at converted
  case h_1 | h_2 | h_4 | h_7 =>
    cases converted
    rfl
  case h_3 | h_5 =>
    split at converted
    · cases converted
      rfl
    · cases converted
  case h_6 =>
    split at converted
    · cases converted
      simpa [admits]
    · cases converted
  case h_8 => cases converted

/-- What a variable stores when it is given a content is of its type. -/
theorem VarType.admits_of_accept {type : VarType} {given : Content} {stored : Value}
    (accepted : type.accept given = .ok stored) : type.admits stored := by
  cases given with
  | none => cases accepted
  | some value => exact admits_of_convert accepted

/-- No declared type admits NULL. -/
theorem VarType.not_admits_null (type : VarType) : type.admits .null = false := by
  cases type <;> rfl

/-- A variable has no value yet, or one of its type. -/
def Binding.WellTyped (binding : Binding) : Prop :=
  binding.value = none ∨ ∃ value, binding.value = some value ∧ binding.type.admits value

/-- All variables of a scope are well typed. -/
def Scope.WellTyped (scope : Scope) : Prop :=
  ∀ entry ∈ scope.bindings, entry.2.WellTyped

/-- All variables of all scopes are well typed. -/
def Scopes.WellTyped (scopes : Scopes) : Prop :=
  ∀ scope ∈ scopes.toList, scope.WellTyped

/-- A variable never holds NULL, since a value that it holds has its type. -/
theorem Binding.WellTyped.value_ne_null {binding : Binding} (wellTyped : binding.WellTyped) :
    binding.value ≠ some .null := by
  rcases wellTyped with missing | ⟨value, present, admitted⟩
  · simp [missing]
  · rw [present]
    intro null
    cases null
    rw [VarType.not_admits_null] at admitted
    cases admitted

/-- Whatever is in hand, it is not the missing content of an empty binding. -/
theorem Value.kind_ne_missing (value : Value) : value.kind ≠ .missing := by
  unfold Value.kind
  split
  case h_5 => split <;> simp
  all_goals simp

/-- Reading a variable without a value is an error, not a value of some default. -/
theorem Run.read_missing {name : Token} {type : VarType} {machine : Machine}
    (found : machine.scopes.find? name.lexeme = some ⟨type, none⟩) :
    Run.read name machine =
      .error (.error ⟨.uninitializedVariable name.lexeme, some name⟩) machine := by
  rw [Run.read_apply]
  simp [Scopes.read, Scopes.lookup, found, bind, Except.bind]

/-! ### The steps that change scopes -/

theorem Scope.wellTyped_empty : Scope.empty.WellTyped := by
  intro entry member
  cases member

/-- Binding a name to a content of its type keeps a scope well typed. -/
theorem Scope.WellTyped.bind {scope : Scope} {binding : Binding} (wellTyped : scope.WellTyped)
    (name : String) (bound : binding.WellTyped) : (scope.bind name binding).WellTyped := by
  obtain ⟨bindings⟩ := scope
  intro entry member
  simp only [Scope.bind] at member
  induction bindings with
  | nil =>
    rw [bindIn, List.mem_singleton] at member
    rw [member]
    exact bound
  | cons first rest inductionHypothesis =>
    have others : ∀ entry ∈ rest, entry.2.WellTyped :=
      fun entry listed => wellTyped entry (List.mem_cons_of_mem first listed)
    rw [bindIn] at member
    split at member
    · rcases List.mem_cons.mp member with rfl | listed
      · exact bound
      · exact others entry listed
    · rcases List.mem_cons.mp member with rfl | listed
      · exact wellTyped entry List.mem_cons_self
      · exact inductionHypothesis others listed

namespace Scopes

variable {scopes : Scopes}

/-- The scopes that a run starts in hold no variable yet. -/
theorem wellTyped_root : root.WellTyped := by
  intro scope member
  rw [toList, root, List.mem_singleton] at member
  rw [member]
  exact Scope.wellTyped_empty

/-- All scopes are well typed when the innermost and the enclosing ones are. -/
theorem wellTyped_iff : scopes.WellTyped ↔
    scopes.innermost.WellTyped ∧ ∀ scope ∈ scopes.enclosing, scope.WellTyped := by
  simp [WellTyped, toList]

/-- A fresh scope is empty. -/
theorem WellTyped.push (wellTyped : scopes.WellTyped) : scopes.push.WellTyped :=
  wellTyped_iff.mpr ⟨Scope.wellTyped_empty, wellTyped⟩

theorem WellTyped.pop (wellTyped : scopes.WellTyped) : scopes.pop.WellTyped := by
  unfold Scopes.pop
  split
  · exact wellTyped
  · rename_i next rest shape
    intro scope member
    apply (wellTyped_iff.mp wellTyped).2 scope
    rw [shape]
    exact member

/-- Replacing a binding by one of its type leaves every scope well typed. -/
theorem wellTyped_rebindIn {list : List Scope} {binding : Binding} (name : String)
    (bound : binding.WellTyped) (wellTyped : ∀ scope ∈ list, scope.WellTyped) :
    ∀ scope ∈ rebindIn name binding list, scope.WellTyped := by
  induction list with
  | nil => exact wellTyped
  | cons first rest inductionHypothesis =>
    rw [List.forall_mem_cons] at wellTyped
    unfold rebindIn
    split
    · exact List.forall_mem_cons.mpr ⟨wellTyped.1.bind name bound, wellTyped.2⟩
    · exact List.forall_mem_cons.mpr ⟨wellTyped.1, inductionHypothesis wellTyped.2⟩

/-- Replacing a binding by one of its type keeps scopes well typed, wherever the name was bound. -/
theorem WellTyped.rebind {binding : Binding} (wellTyped : scopes.WellTyped) (name : String)
    (bound : binding.WellTyped) : (scopes.rebind name binding).WellTyped := by
  unfold WellTyped
  rw [toList_rebind]
  exact wellTyped_rebindIn name bound wellTyped

/-- A content that a variable accepts is stored as a value of its type. -/
theorem store_wellTyped {type : VarType} {name : String} {given : Content} {token : Option Token}
    {stored : Value} (accepted : type.store name given token = .ok stored) :
    Binding.WellTyped ⟨type, some stored⟩ := by
  unfold VarType.store at accepted
  split at accepted
  · rename_i found
    cases accepted
    exact .inr ⟨stored, rfl, VarType.admits_of_accept found⟩
  · cases accepted

/-- What a declaration binds has been accepted by its type. -/
theorem WellTyped.declare {name : Token} {type : VarType} {given : Content} {reached : Scopes}
    (wellTyped : scopes.WellTyped) (declared : scopes.declare name type given = .ok reached) :
    reached.WellTyped := by
  obtain ⟨inside, outside⟩ := wellTyped_iff.mp wellTyped
  rw [declare_eq] at declared
  split at declared
  · cases declared
    exact wellTyped_iff.mpr ⟨inside.bind name.lexeme (.inl rfl), outside⟩
  · split at declared
    · cases declared
    · rename_i accepted
      cases declared
      exact wellTyped_iff.mpr ⟨inside.bind name.lexeme (store_wellTyped accepted), outside⟩

/-- What an assignment stores has been accepted by the type that the name was declared with. -/
theorem WellTyped.assign {name : Token} {given : Content} {stored : Value} {reached : Scopes}
    (wellTyped : scopes.WellTyped) (assigned : scopes.assign name given = .ok (stored, reached)) :
    reached.WellTyped := by
  rw [assign_eq] at assigned
  split at assigned
  · cases assigned
  · split at assigned
    · cases assigned
    · rename_i accepted
      cases assigned
      exact wellTyped.rebind name.lexeme (store_wellTyped accepted)

end Scopes

/-! ### Whole runs -/

/-- No step of a run breaks the typing: only declarations and assignments change bindings. -/
theorem Machine.wellTyped_invariant : Machine.Invariant fun machine => machine.scopes.WellTyped where
  assign := by
    intro name value machine start
    rw [Run.assign_apply]
    split
    · rename_i assigned
      exact start.assign assigned
    · exact start
  declare := by
    intro name type given machine start
    rw [Run.declare_apply]
    split
    · rename_i declared
      exact start.declare declared
    · exact start
  write := by
    intro machine text start
    exact start
  nextLine := by
    intro token machine start
    unfold Run.nextLine
    split
    · exact start
    · exact start
  push := by
    intro machine start
    exact start.push
  pop := by
    intro machine start
    exact start.pop

namespace Session

/-- The sessions that there can be: a new one, and what becomes of it when programs are run, its
log is cleared, its variables are forgotten, text is written, and it is given other input. -/
inductive Reachable : Session → Prop where
  | start (input : Input) : Reachable (start input)
  | run {session : Session} (fuel : Nat) (dump : Bool) (source : String)
      (before : Reachable session) : Reachable (session.run fuel dump source).2
  | clearLog {session : Session} (before : Reachable session) : Reachable session.clearLog
  | forget {session : Session} (before : Reachable session) : Reachable session.forget
  | write {session : Session} (text : String) (before : Reachable session) :
      Reachable (session.write text)
  | feed {session : Session} (input : Input) (before : Reachable session) :
      Reachable { session with machine := { session.machine with input } }

/-- A session is left with the machine at the end of the run. -/
theorem machine_execute (fuel : Nat) (program : List Stmt) (session : Session) :
    (session.execute fuel program).2.machine =
      Run.final (Stmt.execEach fuel program session.machine) := by
  unfold execute
  split <;> simp_all

/-- Executing a program leaves the store well typed, however the execution ends. -/
theorem wellTyped_execute {session : Session} (wellTyped : session.machine.scopes.WellTyped)
    (fuel : Nat) (program : List Stmt) :
    (session.execute fuel program).2.machine.scopes.WellTyped := by
  rw [machine_execute]
  exact Machine.wellTyped_invariant.execEach fuel program _ wellTyped

/-- Running a text leaves the store well typed; a text with errors is not executed. -/
theorem wellTyped_run {session : Session} (wellTyped : session.machine.scopes.WellTyped)
    (fuel : Nat) (dump : Bool) (source : String) :
    (session.run fuel dump source).2.machine.scopes.WellTyped := by
  unfold run
  dsimp only
  split
  · split
    · refine wellTyped_execute ?_ fuel _
      exact wellTyped
    · refine wellTyped_execute ?_ fuel _
      exact wellTyped
  · exact wellTyped

/-- The store of every reachable session is well typed. -/
theorem Reachable.wellTyped {session : Session} (reachable : Reachable session) :
    session.machine.scopes.WellTyped := by
  induction reachable with
  | start input => exact Scopes.wellTyped_root
  | run fuel dump source _ inductionHypothesis =>
    exact wellTyped_run inductionHypothesis fuel dump source
  | clearLog _ inductionHypothesis => exact inductionHypothesis
  | forget _ _ => exact Scopes.wellTyped_root
  | write text _ inductionHypothesis => exact inductionHypothesis
  | feed input _ inductionHypothesis => exact inductionHypothesis

/-- The store of every session is well typed, and so is every machine that running a program on it
passes through, up to the one in which the run ends or stops early. Null is never stored, no
expression evaluates to the missing content, and reading a variable that holds it is an error. -/
theorem store_type_safe (session : Session) (reachable : Reachable session) :
    session.machine.scopes.WellTyped ∧
      ∀ fuel program machine, Call.Visits fuel ⟨.execEach program, session.machine⟩ machine →
        machine.scopes.WellTyped ∧
        (∀ scope ∈ machine.scopes.toList, ∀ entry ∈ scope.bindings,
          entry.2.value ≠ some .null) ∧
        (∀ expr value reached, Expr.eval expr machine = .ok value reached →
          value.kind ≠ .missing) ∧
        (∀ name type, machine.scopes.find? name.lexeme = some ⟨type, none⟩ →
          Expr.eval (.reference name) machine =
            .error (.error ⟨.uninitializedVariable name.lexeme, some name⟩) machine) := by
  refine ⟨reachable.wellTyped, ?_⟩
  intro fuel program machine visited
  have wellTyped := Machine.wellTyped_invariant.visits visited reachable.wellTyped
  refine ⟨wellTyped, ?_, ?_, ?_⟩
  · intro scope inScopes entry listed
    exact (wellTyped scope inScopes entry listed).value_ne_null
  · intro expr value reached _
    exact value.kind_ne_missing
  · intro name type found
    exact Run.read_missing found

/-- A session after a script that declares variables of three types and stops at a division. -/
def divided : Session :=
  ((start ⟨[], false⟩).run 0 false
    ("SCRIPT AREA\nSTART SCRIPT\nDECLARE FLOAT x = 1\nDECLARE BOOL b = \"TRUE\"\n" ++
      "DECLARE CHAR c\nx = 1 / 0\nEND SCRIPT\n")).2

theorem divided_store_type_safe :
    divided.log.hasRuntimeError ∧ divided.machine.scopes.WellTyped ∧
      Expr.eval (.reference ⟨.identifier, "c", none, .start⟩) divided.machine =
        .error (.error ⟨.uninitializedVariable "c", some ⟨.identifier, "c", none, .start⟩⟩)
          divided.machine := by
  have safe := store_type_safe divided (.run 0 false _ (.start _))
  obtain ⟨wellTyped, visited⟩ := safe
  have atStart := visited 0 [] divided.machine ⟨_, .refl, .inl rfl⟩
  refine ⟨by decide +kernel, wellTyped, ?_⟩
  exact atStart.2.2.2 _ .char (by decide +kernel)

end Session

end LineScript
