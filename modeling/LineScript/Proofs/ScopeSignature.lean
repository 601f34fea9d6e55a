/-
Module: LineScript.Proofs.ScopeSignature
Purpose: What a run may do to the names and the types of the variables there are.
Trusted boundary: none
Main exports: Scopes.signatures, assign_eq_ok_iff, declare_eq_ok_iff, KeepsSignatures,
  Program.Ordered.keeps_atRoot
-/
import LineScript.Proofs.DeclarationOrder
import LineScript.Proofs.RunInvariant

/-!
The signature of a scope lists its variables with their types and leaves their values out. Only a
declaration changes a signature, and only that of the innermost scope. So the scopes around those
that were opened since a run began keep their signatures, which is a simulation of the run by
itself. A statement in which nothing is declared keeps the signatures of all scopes it is run in.
-/

namespace LineScript

/-! ### Signatures -/

/-- The variables of a scope with their types. -/
def Scope.signature (scope : Scope) : List (String × VarType) :=
  scope.bindings.map fun entry => (entry.1, entry.2.type)

namespace Scope

/-- Only the empty scope has no variables. -/
theorem signature_eq_nil {scope : Scope} : scope.signature = [] ↔ scope = empty := by
  obtain ⟨bindings⟩ := scope
  simp [signature, empty]

/-- The type of a variable is read off the signature. -/
theorem lookup_signature (scope : Scope) (name : String) :
    scope.signature.lookup name = (scope.find? name).map Binding.type := by
  obtain ⟨bindings⟩ := scope
  unfold signature find?
  induction bindings with
  | nil => rfl
  | cons entry rest inductionHypothesis =>
    rw [List.map_cons, List.lookup_cons, List.lookup_cons]
    split
    · rfl
    · exact inductionHypothesis

/-- A name that has been bound is found with its new binding. -/
theorem find?_bind_self (scope : Scope) (name : String) (binding : Binding) :
    (scope.bind name binding).find? name = some binding := by
  obtain ⟨bindings⟩ := scope
  unfold find? bind
  dsimp only
  induction bindings with
  | nil => simp [bindIn]
  | cons entry rest inductionHypothesis =>
    rw [bindIn]
    by_cases here : entry.1 = name
    · simp [here]
    · have elsewhere : (name == entry.1) = false := by simpa using fun same => here same.symm
      rw [if_neg here, List.lookup_cons, elsewhere]
      exact inductionHypothesis

/-- Binding a name leaves all others alone. -/
theorem find?_bind_of_ne {name other : String} (different : other ≠ name) (scope : Scope)
    (binding : Binding) : (scope.bind name binding).find? other = scope.find? other := by
  obtain ⟨bindings⟩ := scope
  have elsewhere : (other == name) = false := by simpa using different
  unfold find? bind
  dsimp only
  induction bindings with
  | nil => simp [bindIn, List.lookup_cons, elsewhere]
  | cons entry rest inductionHypothesis =>
    rw [bindIn]
    by_cases here : entry.1 = name
    · rw [if_pos here, List.lookup_cons, List.lookup_cons, here, elsewhere]
    · rw [if_neg here, List.lookup_cons, List.lookup_cons, inductionHypothesis]

/-- A name is found just when the scope has a binding for it. -/
theorem find?_isSome_iff_mem {scope : Scope} {name : String} :
    (scope.find? name).isSome ↔ name ∈ scope.bindings.map Prod.fst := by
  rw [find?, List.lookup_isSome_iff]
  simp

/-- Binding a variable anew with the type it has keeps the signature. -/
theorem signature_bind {scope : Scope} {name : String} {old new : Binding}
    (found : scope.find? name = some old) (sameType : new.type = old.type) :
    (scope.bind name new).signature = scope.signature := by
  obtain ⟨bindings⟩ := scope
  unfold find? at found
  unfold signature bind
  dsimp only at found ⊢
  induction bindings with
  | nil => cases found
  | cons entry rest inductionHypothesis =>
    rw [List.lookup_cons] at found
    rw [bindIn]
    by_cases here : entry.1 = name
    · rw [if_pos here]
      simp only [here, beq_self_eq_true, Option.some.injEq] at found
      simp [sameType, found, here]
    · have elsewhere : (name == entry.1) = false := by simpa using fun same => here same.symm
      rw [elsewhere] at found
      rw [if_neg here, List.map_cons, List.map_cons, inductionHypothesis found]

end Scope

/-- What a variable of the given type is declared with, unless it refuses the content. -/
def VarType.initial? (type : VarType) : Content → Option Content
  | none => some none
  | some value =>
    match type.convert value with
    | .ok stored => some (some stored)
    | .error _ => none

/-- The signatures of all scopes, from the inside to the outside. -/
def Scopes.signatures (scopes : Scopes) : List (List (String × VarType)) :=
  scopes.toList.map Scope.signature

namespace Scopes

variable {scopes : Scopes}

/-- There is always an innermost scope. -/
theorem signatures_ne_nil (scopes : Scopes) : scopes.signatures ≠ [] := by
  simp [signatures, toList]

/-- Closing a scope takes its signature away, unless it is the only one. -/
theorem signatures_pop (several : scopes.enclosing ≠ []) :
    scopes.pop.signatures = scopes.signatures.tail := by
  obtain ⟨innermost, enclosing⟩ := scopes
  cases enclosing with
  | nil => exact absurd rfl several
  | cons next rest => rfl

/-- Replacing a binding by one of the same type keeps all signatures. -/
theorem signatures_rebindIn {list : List Scope} {name : String} {old new : Binding}
    (found : findIn name list = some old) (sameType : new.type = old.type) :
    (rebindIn name new list).map Scope.signature = list.map Scope.signature := by
  induction list with
  | nil => rfl
  | cons scope rest inductionHypothesis =>
    unfold findIn at found
    unfold rebindIn
    cases here : scope.find? name with
    | some binding =>
      simp only [here, Option.some.injEq] at found
      rw [List.map_cons, List.map_cons, Scope.signature_bind here (found ▸ sameType)]
    | none =>
      simp only [here] at found
      rw [List.map_cons, List.map_cons, inductionHypothesis found]

/-- Looking a name up finds what is bound to it. -/
theorem find?_of_lookup {name : Token} {binding : Binding}
    (found : scopes.lookup name = .ok binding) : scopes.find? name.lexeme = some binding := by
  unfold lookup at found
  split at found
  · cases found
    assumption
  · cases found

/-- Looking up succeeds just for names that are bound. -/
theorem lookup_eq_ok_iff {name : Token} {binding : Binding} :
    scopes.lookup name = .ok binding ↔ scopes.find? name.lexeme = some binding := by
  constructor
  · exact find?_of_lookup
  · intro found
    rw [lookup, found]

/-- A store succeeds just when the type accepts the content, wherever the error would be located. -/
theorem store_eq_ok_iff {type : VarType} {name : String} {given : Content} {token : Option Token}
    {stored : Value} :
    type.store name given token = .ok stored ↔ type.accept given = .ok stored := by
  unfold VarType.store
  cases type.accept given with
  | ok value => simp
  | error refusal => simp

/-- What an assignment does when it succeeds. -/
theorem assign_eq_ok_iff {name : Token} {given : Content} {stored : Value} {reached : Scopes} :
    scopes.assign name given = .ok (stored, reached) ↔
      ∃ binding, scopes.find? name.lexeme = some binding ∧
        binding.type.accept given = .ok stored ∧
        scopes.rebind name.lexeme ⟨binding.type, some stored⟩ = reached := by
  rw [assign_eq]
  constructor
  · intro assigned
    split at assigned
    · cases assigned
    · rename_i binding found
      split at assigned
      · cases assigned
      · rename_i accepted
        cases assigned
        exact ⟨binding, lookup_eq_ok_iff.mp found, store_eq_ok_iff.mp accepted, rfl⟩
  · rintro ⟨binding, found, accepted, rfl⟩
    rw [lookup_eq_ok_iff.mpr found]
    dsimp only
    rw [store_eq_ok_iff.mpr accepted]

/-- What a declaration does when it succeeds. -/
theorem declare_eq_ok_iff {name : Token} {type : VarType} {given : Content} {reached : Scopes} :
    scopes.declare name type given = .ok reached ↔
      ∃ stored, type.initial? given = some stored ∧
        ⟨scopes.innermost.bind name.lexeme ⟨type, stored⟩, scopes.enclosing⟩ = reached := by
  rw [declare_eq]
  cases given with
  | none => simp [VarType.initial?]
  | some value =>
    cases converted : type.convert value with
    | ok stored => simp [VarType.initial?, VarType.store, VarType.accept, converted]
    | error refusal => simp [VarType.initial?, VarType.store, VarType.accept, converted]

/-- An assignment changes no signature. -/
theorem signatures_assign {name : Token} {given : Content} {stored : Value} {reached : Scopes}
    (assigned : scopes.assign name given = .ok (stored, reached)) :
    reached.signatures = scopes.signatures := by
  obtain ⟨binding, found, _, rfl⟩ := assign_eq_ok_iff.mp assigned
  unfold signatures
  rw [toList_rebind]
  exact signatures_rebindIn found rfl

/-- A declaration leaves all scopes but the innermost one as they are. -/
theorem enclosing_declare {name : Token} {type : VarType} {given : Content} {reached : Scopes}
    (declared : scopes.declare name type given = .ok reached) :
    reached.enclosing = scopes.enclosing := by
  obtain ⟨stored, _, rfl⟩ := declare_eq_ok_iff.mp declared
  rfl

/-- Whether there is a single scope can be told from the signatures. -/
theorem isRoot_of_signatures {other : Scopes} (root : scopes.isRoot)
    (same : other.signatures = scopes.signatures) : other.isRoot := by
  have length := congrArg List.length same
  simp_all [isRoot, signatures, toList]

/-- A single scope is the outermost and the innermost one. -/
theorem outermost_of_isRoot (root : scopes.isRoot) : scopes.outermost = scopes.innermost := by
  have alone : scopes.enclosing = [] := by simpa [isRoot] using root
  simp [outermost, alone]

end Scopes

/-! ### The scopes around a run keep their signatures -/

/-- The same machine twice, whose scopes have the given signatures apart from those that were opened
since the run began. -/
def Machine.Framed (frame : List (List (String × VarType))) (depth : Nat) :
    Machine → Machine → Prop :=
  Run.SameWith (fun machine => machine.scopes.signatures.drop depth = frame) depth

/-- Since nothing but a declaration changes signatures, runs without declarations keep those of the
scopes around them. -/
theorem Machine.framed_simulation {frame : List (List (String × VarType))}
    (nonempty : frame ≠ []) : Simulation (Framed frame) where
  read _ name := (Run.simulated_iff_keeps _).2 (Run.Keeps.read name)
  assign depth name value := by
    refine (Run.simulated_iff_keeps _).2 fun machine framed => ?_
    rw [Run.assign_apply]
    split
    · rename_i assigned
      exact (congrArg _ (Scopes.signatures_assign assigned)).trans framed
    · exact framed
  declare depth name type given := by
    refine (Run.simulated_iff_keeps _).2 fun machine framed => ?_
    rw [Run.declare_apply]
    split
    · rename_i declared
      have outside := Scopes.enclosing_declare declared
      simp only [Scopes.signatures, Scopes.toList, List.map_cons, List.drop_succ_cons,
        Run.final_ok] at framed ⊢
      rw [outside]
      exact framed
    · exact framed
  write _ text := (Run.simulated_iff_keeps _).2 fun _ framed => framed
  nextLine _ token := by
    refine (Run.simulated_iff_keeps _).2 fun machine framed => ?_
    unfold Run.nextLine
    split
    · exact framed
    · exact framed
  push := by
    rintro depth machine _ ⟨rfl, framed⟩
    exact ⟨rfl, framed⟩
  pop := by
    rintro depth machine _ ⟨rfl, framed⟩
    refine ⟨rfl, ?_⟩
    -- Signatures are left behind the opened scopes, so there is a scope around the innermost one.
    have several : machine.scopes.enclosing ≠ [] := by
      intro alone
      apply nonempty
      rw [← framed]
      simp [Scopes.signatures, Scopes.toList, alone]
    change machine.scopes.pop.signatures.drop depth = frame
    rw [Scopes.signatures_pop several, List.drop_tail]
    exact framed

/-! ### Statements in which nothing is declared -/

namespace Stmt

mutual

/-- A statement without declarations declares nothing in its parts. -/
theorem Executable.respects (depth : Nat) :
    ∀ statement : Stmt, statement.Executable → statement.Respects .insideScopes depth
  | .declare _ _, impossible => impossible.elim
  | .expression expr, _ => expr.respects_insideScopes
  | .print expr, _ => expr.respects_insideScopes
  | .scan _ _, _ => fun _ _ => trivial
  | .branch _ condition thenBranch elseBranch, parts =>
    ⟨condition.respects_insideScopes, Executable.respects depth thenBranch parts.1,
      ElseExecutable.respects depth elseBranch parts.2⟩
  | .loop _ condition body, inside =>
    ⟨condition.respects_insideScopes, Executable.respects depth body inside⟩
  | .block statements, _ => eachRespects_insideScopes depth statements

theorem ElseExecutable.respects (depth : Nat) : ∀ statement : Option Stmt,
    ElseExecutable statement → ElseRespects .insideScopes depth statement
  | none, _ => trivial
  | some statement, inside => Executable.respects depth statement inside

end

/-- So it is for sequences. -/
theorem EachExecutable.respects (depth : Nat) {statements : List Stmt}
    (executable : EachExecutable statements) : EachRespects .insideScopes depth statements := by
  induction statements with
  | nil => trivial
  | cons statement rest inductionHypothesis =>
    exact ⟨Executable.respects depth statement executable.1, inductionHypothesis executable.2⟩

end Stmt

namespace Machine.Simulation

open Run

variable {related : Nat → Machine → Machine → Prop} {lax : Prop} {fuel larger : Nat}

/-- A statement in which nothing is declared need not be run inside an opened scope. -/
theorem executable (simulation : Simulation related) (fits : Fits lax fuel larger) (depth : Nat)
    (statement : Stmt) (executable : statement.Executable) :
    Simulated lax (related depth) (statement.exec fuel) (statement.exec larger) :=
  simulation.insideScopes.exec fits depth statement (executable.respects depth statement)

/-- Sequences without declarations are simulated wherever reads and stores are. -/
theorem eachExecutable (simulation : Simulation related) (fits : Fits lax fuel larger)
    (depth : Nat) {statements : List Stmt} (inside : Stmt.EachExecutable statements) :
    Simulated lax (related depth) (Stmt.execEach fuel statements)
      (Stmt.execEach larger statements) :=
  simulation.insideScopes.execEach fits depth statements (inside.respects depth)

end Machine.Simulation

namespace Run

variable {α : Type}

/-- However the action ends, all scopes have the signatures they had when it started. -/
def KeepsSignatures (action : Run α) : Prop :=
  ∀ machine, (final (action machine)).scopes.signatures = machine.scopes.signatures

/-- An action keeps all signatures if it is simulated by itself on machines with any of them. -/
theorem keepsSignatures_of_framed {action : Run α}
    (framed : ∀ frame, Machine.Simulation (Machine.Framed frame) →
      Simulated False (Machine.Framed frame 0) action action) : KeepsSignatures action := by
  intro machine
  have simulation := Machine.framed_simulation machine.scopes.signatures_ne_nil
  exact (simulated_iff_keeps 0).1 (framed _ simulation) machine rfl

theorem KeepsSignatures.of_ok {action : Run α} {machine reached : Machine} {value : α}
    (keeps : KeepsSignatures action) (ending : action machine = .ok value reached) :
    reached.scopes.signatures = machine.scopes.signatures := by
  have kept := keeps machine
  rwa [ending] at kept

theorem KeepsSignatures.innermost_of_ok {action : Run α} {machine reached : Machine} {value : α}
    (keeps : KeepsSignatures action) (ending : action machine = .ok value reached) :
    reached.scopes.innermost.signature = machine.scopes.innermost.signature :=
  (List.cons.inj (keeps.of_ok ending)).1

/-- Evaluating an expression declares nothing. -/
theorem keepsSignatures_eval (expr : Expr) : KeepsSignatures expr.eval :=
  keepsSignatures_of_framed fun _ simulation => simulation.eval 0 expr

theorem keepsSignatures_evalCondition (keyword : Option Token) (expr : Expr) :
    KeepsSignatures (expr.evalCondition keyword) :=
  keepsSignatures_of_framed fun _ simulation => simulation.evalCondition 0 keyword expr

/-- An assignment stores in a binding that there is. -/
theorem keepsSignatures_assign (name : Token) (value : Value) :
    KeepsSignatures (assign name value) :=
  keepsSignatures_of_framed fun _ simulation => simulation.assign 0 name value

/-- Reading input declares nothing. -/
theorem keepsSignatures_readValues (token : Token) : KeepsSignatures (readValues token) :=
  keepsSignatures_of_framed fun _ simulation => simulation.readValues 0 token

theorem keepsSignatures_initializer (initializer : Option Expr) :
    KeepsSignatures (initializer.mapM Expr.eval) :=
  keepsSignatures_of_framed fun _ simulation => simulation.initializer 0 initializer

/-- Nor does a statement that is executable. -/
theorem keepsSignatures_exec (fuel : Nat) {statement : Stmt} (executable : statement.Executable) :
    KeepsSignatures (statement.exec fuel) :=
  keepsSignatures_of_framed fun _ simulation =>
    simulation.executable (.inl rfl) 0 statement executable

/-- Nor do several of them. -/
theorem keepsSignatures_execEach (fuel : Nat) {statements : List Stmt}
    (executable : Stmt.EachExecutable statements) :
    KeepsSignatures (Stmt.execEach fuel statements) :=
  keepsSignatures_of_framed fun _ simulation => simulation.eachExecutable (.inl rfl) 0 executable

end Run

/-! ### Programs run in a single scope -/

/-- The machine has a single scope. -/
def Machine.AtRoot (machine : Machine) : Prop :=
  machine.scopes.isRoot

namespace Run

/-- An action that keeps signatures keeps the single scope single. -/
theorem KeepsSignatures.keeps_atRoot {α : Type} {action : Run α}
    (keeps : KeepsSignatures action) : Keeps Machine.AtRoot action :=
  fun machine root => Scopes.isRoot_of_signatures root (keeps machine)

/-- A declaration adds a name to a scope and opens none. -/
theorem keeps_atRoot_declare (name : Token) (type : VarType) (given : Content) :
    Keeps Machine.AtRoot (declare name type given) := by
  intro machine root
  rw [declare_apply]
  split
  · rename_i declared
    have outside := Scopes.enclosing_declare declared
    unfold Machine.AtRoot Scopes.isRoot at root ⊢
    rw [final_ok, outside]
    exact root
  · exact root

/-- Nor do several declarations open a scope. -/
theorem keeps_atRoot_declareEach (type : VarType) (names : List Declarator) :
    Keeps Machine.AtRoot (declareEach type names) := by
  induction names with
  | nil => exact fun _ root => root
  | cons declarator rest inductionHypothesis =>
    refine Keeps.bind (keepsSignatures_initializer _).keeps_atRoot fun given => ?_
    exact Keeps.bind (keeps_atRoot_declare _ _ given) fun _ => inductionHypothesis

end Run

/-- A program that is started with a single scope ends with a single scope, however it ends. -/
theorem Program.Ordered.keeps_atRoot {program : List Stmt} (ordered : Ordered program)
    (fuel : Nat) : Run.Keeps Machine.AtRoot (Stmt.execEach fuel program) := by
  induction ordered with
  | statements executable => exact (Run.keepsSignatures_execEach fuel executable).keeps_atRoot
  | declaration _ inductionHypothesis =>
    rw [Stmt.execEach, Stmt.exec]
    exact Run.Keeps.bind (Run.keeps_atRoot_declareEach _ _) fun _ => inductionHypothesis

end LineScript
