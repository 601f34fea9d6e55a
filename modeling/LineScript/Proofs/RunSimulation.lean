/-
Module: LineScript.Proofs.RunSimulation
Purpose: Runs from related machines end alike, in related machines.
Trusted boundary: none
Main exports: Agree, Simulated, Access, Machine.Simulation, Machine.Simulation.exec
-/
import LineScript.Proofs.Action
import LineScript.Stmt.Exec

/-!
A run looks at its machine and changes it in few ways: a variable is read, assigned or declared, a
scope is opened or closed, text is written, and a line is read. If all of these agree on related
machines and keep them related, so does every run. The relation may depend on how many scopes were
opened since the runs began, and declarations need to agree only inside an opened scope.

The induction over expressions and statements is made here once, for runs that may use only some of
the variables: the steps need to agree on these only. Invariants, the independence of the fuel, the
irrelevance of empty scopes and of variables that are not mentioned are instances of it. For the
fuel, a run that is out of it may be taken to agree with every other run.
-/

namespace LineScript

/-! ### The steps of a run -/

namespace Scopes

/-- Where a variable is bound anew does not depend on which scope is the innermost. -/
theorem toList_rebind (scopes : Scopes) (name : String) (binding : Binding) :
    (scopes.rebind name binding).toList = rebindIn name binding scopes.toList := by
  unfold rebind
  cases found : scopes.innermost.find? name with
  | some binding => simp [toList, rebindIn, found]
  | none => simp [toList, rebindIn, found]

/-- Assigning looks the variable up, converts, and binds it anew. -/
theorem assign_eq (scopes : Scopes) (name : Token) (given : Content) :
    scopes.assign name given =
      match scopes.lookup name with
      | .error error => .error error
      | .ok binding =>
        match binding.type.store name.lexeme given (some name) with
        | .error error => .error error
        | .ok stored => .ok (stored, scopes.rebind name.lexeme ⟨binding.type, some stored⟩) := by
  unfold assign
  cases scopes.lookup name with
  | error error => rfl
  | ok binding =>
    dsimp only [bind, Except.bind]
    cases binding.type.store name.lexeme given (some name) with
    | error error => rfl
    | ok stored => rfl

/-- Declaring converts the value, if there is one, and binds the name in the innermost scope. -/
theorem declare_eq (scopes : Scopes) (name : Token) (type : VarType) (given : Content) :
    scopes.declare name type given =
      match given with
      | none => .ok ⟨scopes.innermost.bind name.lexeme ⟨type, none⟩, scopes.enclosing⟩
      | some value =>
        match type.store name.lexeme (some value) (some name) with
        | .error error => .error error
        | .ok stored =>
          .ok ⟨scopes.innermost.bind name.lexeme ⟨type, some stored⟩, scopes.enclosing⟩ := by
  unfold declare
  cases given with
  | none => rfl
  | some value =>
    change (some <$> type.store name.lexeme (some value) (some name) >>= fun stored => _) = _
    dsimp only
    cases type.store name.lexeme (some value) (some name) with
    | error error => rfl
    | ok stored => rfl

end Scopes

/-- How a run ends: with a result or with the reason why it stopped, and in which machine. -/
abbrev Run.Ending (α : Type) := EStateM.Result Stop Machine α

namespace Run

variable {α β : Type} {lax : Prop} {related : Machine → Machine → Prop}

/-- Reading a variable leaves the machine as it is, also when it fails. -/
theorem read_apply (name : Token) (machine : Machine) :
    read name machine =
      match machine.scopes.read name with
      | .ok value => .ok value machine
      | .error error => .error (.error error) machine := by
  unfold read
  rw [Action.bind_apply, Action.get_apply]
  dsimp only
  cases machine.scopes.read name with
  | ok value => rfl
  | error error => rfl

/-- Assigning changes the scopes alone, and nothing when it fails. -/
theorem assign_apply (name : Token) (value : Value) (machine : Machine) :
    assign name value machine =
      match machine.scopes.assign name (some value) with
      | .ok (_, scopes) => .ok () { machine with scopes }
      | .error error => .error (.error error) machine := by
  unfold assign
  rw [Action.bind_apply, Action.get_apply]
  dsimp only
  cases machine.scopes.assign name (some value) with
  | ok pair => rfl
  | error error => rfl

/-- Declaring changes the scopes alone, and nothing when it fails. -/
theorem declare_apply (name : Token) (type : VarType) (given : Content) (machine : Machine) :
    declare name type given machine =
      match machine.scopes.declare name type given with
      | .ok scopes => .ok () { machine with scopes }
      | .error error => .error (.error error) machine := by
  unfold declare
  rw [Action.bind_apply, Action.get_apply]
  dsimp only
  cases machine.scopes.declare name type given with
  | ok scopes => rfl
  | error error => rfl

/-- An action that succeeds in a scope of its own has the scope closed behind it. -/
theorem inScope_of_ok {action : Run α} {machine reached : Machine} {value : α}
    (ending : action { machine with scopes := machine.scopes.push } = .ok value reached) :
    inScope action machine = .ok value { reached with scopes := reached.scopes.pop } := by
  unfold inScope
  rw [ending]

/-- The scope is closed also behind an action that fails. -/
theorem inScope_of_error {action : Run α} {machine reached : Machine} {stop : Stop}
    (ending : action { machine with scopes := machine.scopes.push } = .error stop reached) :
    inScope action machine = .error stop { reached with scopes := reached.scopes.pop } := by
  unfold inScope
  rw [ending]

/-! ### Simulations -/

/-- Two runs end alike, in related machines. In a lax comparison, one that is out of fuel agrees
with every run. -/
inductive Agree (lax : Prop) (related : Machine → Machine → Prop) : Ending α → Ending α → Prop where
  | ok {machine mirror : Machine} (value : α) (ends : related machine mirror) :
      Agree lax related (.ok value machine) (.ok value mirror)
  | error {machine mirror : Machine} (stop : Stop) (ends : related machine mirror) :
      Agree lax related (.error stop machine) (.error stop mirror)
  | unfinished {machine : Machine} {result : Ending α} (allowed : lax) :
      Agree lax related (.error .outOfFuel machine) result

/-- Started in related machines, two actions end alike, in related machines. -/
def Simulated (lax : Prop) (related : Machine → Machine → Prop) (action mirrored : Run α) : Prop :=
  ∀ machine mirror, related machine mirror → Agree lax related (action machine) (mirrored mirror)

/-- A simulation that allows for no want of fuel is one that would allow for it. -/
theorem Simulated.weaken {action mirrored : Run α}
    (simulated : Simulated False related action mirrored) :
    Simulated lax related action mirrored := by
  intro machine mirror start
  have ending := simulated machine mirror start
  generalize action machine = result at ending ⊢
  generalize mirrored mirror = other at ending ⊢
  cases ending with
  | ok value ends => exact .ok value ends
  | error stop ends => exact .error stop ends
  | unfinished impossible => exact impossible.elim

theorem Simulated.pure (value : α) :
    Simulated lax related (Pure.pure value : Run α) (Pure.pure value) :=
  fun _ _ start => .ok value start

theorem Simulated.throw (stop : Stop) :
    Simulated lax related (throw stop : Run α) (throw stop) :=
  fun _ _ start => .error stop start

/-- Two simulated actions are simulated one after the other. -/
theorem Simulated.bind {action mirrored : Run α} {next following : α → Run β}
    (first : Simulated lax related action mirrored)
    (second : ∀ value, Simulated lax related (next value) (following value)) :
    Simulated lax related (action >>= next) (mirrored >>= following) := by
  intro machine mirror start
  have middle := first machine mirror start
  rw [Action.bind_apply, Action.bind_apply]
  generalize action machine = result at middle ⊢
  generalize mirrored mirror = other at middle ⊢
  cases middle with
  | ok value ends => exact second value _ _ ends
  | error stop ends => exact .error stop ends
  | unfinished allowed => exact .unfinished allowed

theorem Simulated.ofExcept (result : Except Stop α) :
    Simulated lax related (ofExcept result) (ofExcept result) := by
  cases result with
  | ok value => exact Simulated.pure value
  | error stop => exact Simulated.throw stop

/-- How much fuel the compared runs may have: the same, or in a lax comparison more for the
second one. -/
def Fits (lax : Prop) (fuel larger : Nat) : Prop :=
  fuel = larger ∨ lax ∧ fuel ≤ larger

/-- A loop with enough fuel is simulated by the loop of the simulations. -/
theorem Simulated.whileLoop {test mirroredTest : Run Bool} {action mirrored : Run Unit}
    (testSimulated : Simulated lax related test mirroredTest)
    (actionSimulated : Simulated lax related action mirrored) {fuel larger : Nat}
    (fits : Fits lax fuel larger) :
    Simulated lax related (whileLoop test action fuel)
      (Run.whileLoop mirroredTest mirrored larger) := by
  induction fuel generalizing larger with
  | zero =>
    rcases fits with rfl | ⟨allowed, _⟩
    · exact Simulated.throw .outOfFuel
    · intro machine mirror _
      exact .unfinished allowed
  | succ fuel inductionHypothesis =>
    cases larger with
    | zero =>
      rcases fits with impossible | ⟨_, impossible⟩
      · cases impossible
      · exact absurd impossible (Nat.not_succ_le_zero fuel)
    | succ larger =>
      have fitsAfter : Fits lax fuel larger := by
        rcases fits with same | ⟨allowed, smaller⟩
        · exact .inl (Nat.succ.inj same)
        · exact .inr ⟨allowed, Nat.le_of_succ_le_succ smaller⟩
      refine testSimulated.bind fun truth => ?_
      cases truth with
      | true => exact actionSimulated.bind fun _ => inductionHypothesis fitsAfter
      | false => exact Simulated.pure ()

end Run

/-! ### The variables that a run uses -/

/-- What a run may do: which names it may read and store under, and which it may declare when so
many scopes were opened since it began. -/
structure Access where
  reads : String → Prop
  stores : String → Prop
  declares : Nat → String → Prop

/-- Every name may be used, but nothing is declared where the run began. -/
def Access.insideScopes : Access :=
  ⟨fun _ => True, fun _ => True, fun depth _ => depth ≠ 0⟩

/-- The evaluation of an expression does nothing that it may not do. -/
def Expr.Respects (access : Access) : Expr → Prop
  | .literal _ => True
  | .reference name => access.reads name.lexeme
  | .assign name value => access.stores name.lexeme ∧ value.Respects access
  | .unary _ operand => operand.Respects access
  | .binary left _ right => left.Respects access ∧ right.Respects access
  | .logical left _ right => left.Respects access ∧ right.Respects access
  | .group inner => inner.Respects access

/-- The declaration of a name inside so many scopes does nothing that it may not do. -/
def Declarator.Respects (access : Access) (depth : Nat) (declarator : Declarator) : Prop :=
  access.declares depth declarator.name.lexeme ∧
    ∀ expr, declarator.initializer = some expr → expr.Respects access

namespace Stmt

mutual

/-- The execution of a statement inside so many scopes does nothing that it may not do. -/
def Respects (access : Access) (depth : Nat) : Stmt → Prop
  | .declare _ names => ∀ declarator ∈ names, declarator.Respects access depth
  | .expression expr => expr.Respects access
  | .print expr => expr.Respects access
  | .scan first others => ∀ name ∈ first :: others, access.stores name.lexeme
  | .branch _ condition thenBranch elseBranch =>
    condition.Respects access ∧ thenBranch.Respects access depth ∧
      ElseRespects access depth elseBranch
  | .loop _ condition body => condition.Respects access ∧ body.Respects access depth
  | .block statements => EachRespects access (depth + 1) statements

/-- The other branch of a conditional, if there is one, does nothing that it may not do. -/
def ElseRespects (access : Access) (depth : Nat) : Option Stmt → Prop
  | none => True
  | some statement => statement.Respects access depth

/-- Statements run one after the other do nothing that they may not do. -/
def EachRespects (access : Access) (depth : Nat) : List Stmt → Prop
  | [] => True
  | statement :: rest => statement.Respects access depth ∧ EachRespects access depth rest

end

end Stmt

/-- An expression uses variables, wherever it stands. -/
theorem Expr.respects_insideScopes (expr : Expr) : expr.Respects .insideScopes := by
  induction expr with
  | literal => trivial
  | reference => trivial
  | assign name value inductionHypothesis => exact ⟨trivial, inductionHypothesis⟩
  | unary operator operand inductionHypothesis => exact inductionHypothesis
  | binary left operator right leftHypothesis rightHypothesis =>
    exact ⟨leftHypothesis, rightHypothesis⟩
  | logical left operator right leftHypothesis rightHypothesis =>
    exact ⟨leftHypothesis, rightHypothesis⟩
  | group inner inductionHypothesis => exact inductionHypothesis

theorem Declarator.respects_insideScopes (depth : Nat) (declarator : Declarator) :
    declarator.Respects .insideScopes (depth + 1) :=
  ⟨Nat.succ_ne_zero depth, fun expr _ => expr.respects_insideScopes⟩

namespace Stmt

mutual

/-- A statement in a scope may use and declare what it likes. -/
theorem respects_insideScopes (depth : Nat) :
    ∀ statement : Stmt, statement.Respects .insideScopes (depth + 1)
  | .declare _ _ => fun declarator _ => declarator.respects_insideScopes depth
  | .expression expr => expr.respects_insideScopes
  | .print expr => expr.respects_insideScopes
  | .scan _ _ => fun _ _ => trivial
  | .branch _ condition thenBranch elseBranch =>
    ⟨condition.respects_insideScopes, respects_insideScopes depth thenBranch,
      elseRespects_insideScopes depth elseBranch⟩
  | .loop _ condition body => ⟨condition.respects_insideScopes, respects_insideScopes depth body⟩
  | .block statements => eachRespects_insideScopes (depth + 1) statements

theorem elseRespects_insideScopes (depth : Nat) :
    ∀ statement : Option Stmt, ElseRespects .insideScopes (depth + 1) statement
  | none => trivial
  | some statement => respects_insideScopes depth statement

theorem eachRespects_insideScopes (depth : Nat) :
    ∀ statements : List Stmt, EachRespects .insideScopes (depth + 1) statements
  | [] => trivial
  | statement :: rest =>
    ⟨respects_insideScopes depth statement, eachRespects_insideScopes depth rest⟩

end

end Stmt

/-! ### Relations that the steps of a run respect -/

/-- A relation of machines, for every number of scopes opened since the runs began, that every step
of a run respects which uses no variable. -/
structure Machine.NamelessSimulation (related : Nat → Machine → Machine → Prop) : Prop where
  write : ∀ depth text, Run.Simulated False (related depth) (Run.write text) (Run.write text)
  nextLine : ∀ depth token,
    Run.Simulated False (related depth) (Run.nextLine token) (Run.nextLine token)
  push : ∀ {depth machine mirror}, related depth machine mirror →
    related (depth + 1) { machine with scopes := machine.scopes.push }
      { mirror with scopes := mirror.scopes.push }
  pop : ∀ {depth machine mirror}, related (depth + 1) machine mirror →
    related depth { machine with scopes := machine.scopes.pop }
      { mirror with scopes := mirror.scopes.pop }

/-- A relation that every step respects which does nothing that it may not do. -/
structure Machine.SimulationFor (access : Access) (related : Nat → Machine → Machine → Prop) :
    Prop extends NamelessSimulation related where
  read : ∀ depth name, access.reads name.lexeme →
    Run.Simulated False (related depth) (Run.read name) (Run.read name)
  assign : ∀ depth name value, access.stores name.lexeme →
    Run.Simulated False (related depth) (Run.assign name value) (Run.assign name value)
  declare : ∀ depth name type given, access.declares depth name.lexeme →
    Run.Simulated False (related depth) (Run.declare name type given) (Run.declare name type given)

/-- A relation that every step respects, where declarations need to agree only inside an opened
scope. -/
structure Machine.Simulation (related : Nat → Machine → Machine → Prop) : Prop
    extends NamelessSimulation related where
  read : ∀ depth name, Run.Simulated False (related depth) (Run.read name) (Run.read name)
  assign : ∀ depth name value,
    Run.Simulated False (related depth) (Run.assign name value) (Run.assign name value)
  declare : ∀ depth name type given, Run.Simulated False (related (depth + 1))
    (Run.declare name type given) (Run.declare name type given)

namespace Machine.NamelessSimulation

open Run

variable {related : Nat → Machine → Machine → Prop} {lax : Prop}

/-- An action in a scope of its own is simulated if it is one scope deeper. -/
theorem inScope {α : Type} {action mirrored : Run α} (simulation : NamelessSimulation related)
    {depth : Nat} (simulated : Simulated lax (related (depth + 1)) action mirrored) :
    Simulated lax (related depth) (inScope action) (Run.inScope mirrored) := by
  intro machine mirror start
  have inside := simulated _ _ (simulation.push start)
  unfold Run.inScope
  generalize action { machine with scopes := machine.scopes.push } = result at inside ⊢
  generalize mirrored { mirror with scopes := mirror.scopes.push } = other at inside ⊢
  cases inside with
  | ok value ends => exact .ok value (simulation.pop ends)
  | error stop ends => exact .error stop (simulation.pop ends)
  | unfinished allowed => exact .unfinished allowed

/-- Taking a line from the input is simulated, since no variable is involved. -/
theorem readValues (simulation : NamelessSimulation related) (depth : Nat) (token : Token) :
    Simulated lax (related depth) (readValues token) (Run.readValues token) := by
  refine (simulation.nextLine depth token).weaken.bind fun line => ?_
  dsimp only
  split
  · exact Simulated.pure _
  · exact Simulated.throw _

end Machine.NamelessSimulation

namespace Machine.SimulationFor

open Run

variable {access : Access} {related : Nat → Machine → Machine → Prop} {lax : Prop}
  {fuel larger : Nat}

/-- Evaluation respects every relation that the uses of its variables respect. -/
theorem eval (simulation : SimulationFor access related) (depth : Nat) (expr : Expr)
    (respects : expr.Respects access) : Simulated lax (related depth) expr.eval expr.eval := by
  induction expr with
  | literal value => exact Simulated.pure value
  | reference name => exact (simulation.read depth name respects).weaken
  | assign name expr inductionHypothesis =>
    refine (inductionHypothesis respects.2).bind fun value => ?_
    exact (simulation.assign depth name value respects.1).weaken.bind fun _ => Simulated.pure value
  | unary operator operand inductionHypothesis =>
    exact (inductionHypothesis respects).bind fun value => Simulated.ofExcept _
  | binary left operator right leftHypothesis rightHypothesis =>
    refine (leftHypothesis respects.1).bind fun first => ?_
    exact (rightHypothesis respects.2).bind fun second => Simulated.ofExcept _
  | logical left operator right leftHypothesis rightHypothesis =>
    refine (leftHypothesis respects.1).bind fun value => (Simulated.ofExcept _).bind fun first => ?_
    split
    · exact Simulated.pure _
    · refine (rightHypothesis respects.2).bind fun value => ?_
      exact (Simulated.ofExcept _).bind fun second => Simulated.pure _
  | group inner inductionHypothesis => exact inductionHypothesis respects

theorem evalCondition (simulation : SimulationFor access related) (depth : Nat)
    (keyword : Option Token) (expr : Expr) (respects : expr.Respects access) :
    Simulated lax (related depth) (expr.evalCondition keyword) (expr.evalCondition keyword) := by
  refine (simulation.eval depth expr respects).bind fun value => ?_
  split
  · exact Simulated.pure _
  · split
    · exact Simulated.throw _
    · exact Simulated.throw _

/-- Values are stored in related variables one after the other. -/
theorem assignEach (simulation : SimulationFor access related) (depth : Nat)
    (pairs : List (Token × Value)) (respects : ∀ pair ∈ pairs, access.stores pair.1.lexeme) :
    Simulated lax (related depth) (assignEach pairs) (Run.assignEach pairs) := by
  induction pairs with
  | nil => exact Simulated.pure ()
  | cons pair rest inductionHypothesis =>
    rw [List.forall_mem_cons] at respects
    exact (simulation.assign depth pair.1 pair.2 respects.1).weaken.bind fun _ =>
      inductionHypothesis respects.2

/-- Variables that are read from a line of input are stored in related variables. -/
theorem scan (simulation : SimulationFor access related) (depth : Nat) (first : Token)
    (others : List Token) (respects : ∀ name ∈ first :: others, access.stores name.lexeme) :
    Simulated lax (related depth) (scan first others) (Run.scan first others) := by
  refine (simulation.readValues depth first).bind fun values => ?_
  split
  · apply simulation.assignEach depth
    intro pair member
    exact respects pair.1 (List.of_mem_zip member).1
  · exact Simulated.throw _

theorem initializer (simulation : SimulationFor access related) (depth : Nat)
    (initializer : Option Expr)
    (respects : ∀ expr, initializer = some expr → expr.Respects access) :
    Simulated lax (related depth) (initializer.mapM Expr.eval) (initializer.mapM Expr.eval) := by
  cases initializer with
  | none => exact Simulated.pure none
  | some expr =>
    exact (simulation.eval depth expr (respects expr rfl)).bind fun value =>
      Simulated.pure (some value)

/-- Declarations of one type are simulated, each initializer in its turn. -/
theorem declareEach (simulation : SimulationFor access related) (depth : Nat) (type : VarType)
    (names : List Declarator) (respects : ∀ declarator ∈ names, declarator.Respects access depth) :
    Simulated lax (related depth) (declareEach type names) (Run.declareEach type names) := by
  induction names with
  | nil => exact Simulated.pure ()
  | cons declarator rest inductionHypothesis =>
    rw [List.forall_mem_cons] at respects
    refine (simulation.initializer _ declarator.initializer respects.1.2).bind fun given => ?_
    have declared := simulation.declare depth declarator.name type given respects.1.1
    refine declared.weaken.bind fun _ => ?_
    exact inductionHypothesis respects.2

theorem print (simulation : SimulationFor access related) (depth : Nat) (expr : Expr)
    (respects : expr.Respects access) :
    Simulated lax (related depth) (print expr) (Run.print expr) := by
  refine (simulation.eval depth expr respects).bind fun value => ?_
  exact (Simulated.ofExcept _).bind fun text => (simulation.write depth text).weaken

mutual

/-- A statement respects every relation that its steps respect, whatever its depth. -/
theorem exec (simulation : SimulationFor access related) (fits : Fits lax fuel larger)
    (depth : Nat) : ∀ statement : Stmt, statement.Respects access depth →
      Simulated lax (related depth) (statement.exec fuel) (statement.exec larger)
  | .declare type names, respects => simulation.declareEach depth type names respects
  | .expression expr, respects =>
    (simulation.eval depth expr respects).bind fun _ => Simulated.pure ()
  | .print expr, respects => simulation.print depth expr respects
  | .scan first others, respects => simulation.scan depth first others respects
  | .branch keyword condition thenBranch elseBranch, respects => by
    refine (simulation.evalCondition depth keyword condition respects.1).bind fun truth => ?_
    cases truth with
    | true => exact simulation.exec fits depth thenBranch respects.2.1
    | false => exact simulation.execElse fits depth elseBranch respects.2.2
  | .loop keyword condition body, respects =>
    Simulated.whileLoop (simulation.evalCondition depth keyword condition respects.1)
      (simulation.exec fits depth body respects.2) fits
  | .block statements, respects =>
    simulation.inScope (simulation.execEach fits (depth + 1) statements respects)

/-- So do the branches of a conditional. -/
theorem execElse (simulation : SimulationFor access related) (fits : Fits lax fuel larger)
    (depth : Nat) : ∀ statement : Option Stmt, Stmt.ElseRespects access depth statement →
      Simulated lax (related depth) (Stmt.execElse fuel statement) (Stmt.execElse larger statement)
  | none, _ => Simulated.pure ()
  | some statement, respects => simulation.exec fits depth statement respects

/-- So do statements, run one after the other. -/
theorem execEach (simulation : SimulationFor access related) (fits : Fits lax fuel larger)
    (depth : Nat) : ∀ statements : List Stmt, Stmt.EachRespects access depth statements →
      Simulated lax (related depth) (Stmt.execEach fuel statements)
        (Stmt.execEach larger statements)
  | [], _ => Simulated.pure ()
  | statement :: rest, respects =>
    (simulation.exec fits depth statement respects.1).bind fun _ =>
      simulation.execEach fits depth rest respects.2

end

end Machine.SimulationFor

namespace Machine.Simulation

open Run

variable {related : Nat → Machine → Machine → Prop} {lax : Prop} {fuel larger : Nat}

/-- Such a relation is respected by whatever may declare inside opened scopes only. -/
theorem insideScopes (simulation : Simulation related) :
    SimulationFor .insideScopes related where
  toNamelessSimulation := simulation.toNamelessSimulation
  read depth name _ := simulation.read depth name
  assign depth name value _ := simulation.assign depth name value
  declare depth name type given opened := by
    obtain ⟨outer, rfl⟩ := Nat.exists_eq_succ_of_ne_zero opened
    exact simulation.declare outer name type given

/-- Without a condition on names, evaluation respects the relation for every expression. -/
theorem eval (simulation : Simulation related) (depth : Nat) (expr : Expr) :
    Simulated lax (related depth) expr.eval expr.eval :=
  simulation.insideScopes.eval depth expr expr.respects_insideScopes

theorem evalCondition (simulation : Simulation related) (depth : Nat) (keyword : Option Token)
    (expr : Expr) :
    Simulated lax (related depth) (expr.evalCondition keyword) (expr.evalCondition keyword) :=
  simulation.insideScopes.evalCondition depth keyword expr expr.respects_insideScopes

theorem assignEach (simulation : Simulation related) (depth : Nat)
    (pairs : List (Token × Value)) :
    Simulated lax (related depth) (assignEach pairs) (Run.assignEach pairs) :=
  simulation.insideScopes.assignEach depth pairs fun _ _ => trivial

theorem scan (simulation : Simulation related) (depth : Nat) (first : Token)
    (others : List Token) :
    Simulated lax (related depth) (scan first others) (Run.scan first others) :=
  simulation.insideScopes.scan depth first others fun _ _ => trivial

theorem initializer (simulation : Simulation related) (depth : Nat) (initializer : Option Expr) :
    Simulated lax (related depth) (initializer.mapM Expr.eval) (initializer.mapM Expr.eval) :=
  simulation.insideScopes.initializer depth initializer fun expr _ => expr.respects_insideScopes

theorem declareEach (simulation : Simulation related) (depth : Nat) (type : VarType)
    (names : List Declarator) :
    Simulated lax (related (depth + 1)) (declareEach type names) (Run.declareEach type names) :=
  simulation.insideScopes.declareEach (depth + 1) type names fun declarator _ =>
    declarator.respects_insideScopes depth

theorem print (simulation : Simulation related) (depth : Nat) (expr : Expr) :
    Simulated lax (related depth) (print expr) (Run.print expr) :=
  simulation.insideScopes.print depth expr expr.respects_insideScopes

/-- A statement run inside an opened scope. -/
theorem exec (simulation : Simulation related) (fits : Fits lax fuel larger) (depth : Nat)
    (statement : Stmt) :
    Simulated lax (related (depth + 1)) (statement.exec fuel) (statement.exec larger) :=
  simulation.insideScopes.exec fits (depth + 1) statement (statement.respects_insideScopes depth)

/-- Statements run inside an opened scope. -/
theorem execEach (simulation : Simulation related) (fits : Fits lax fuel larger) (depth : Nat)
    (statements : List Stmt) : Simulated lax (related (depth + 1))
      (Stmt.execEach fuel statements) (Stmt.execEach larger statements) :=
  simulation.insideScopes.execEach fits (depth + 1) statements
    (Stmt.eachRespects_insideScopes depth statements)

/-- A block declares nothing in the scope it is run in. -/
theorem block (simulation : Simulation related) (fits : Fits lax fuel larger) (depth : Nat)
    (statements : List Stmt) : Simulated lax (related depth)
      ((Stmt.block statements).exec fuel) ((Stmt.block statements).exec larger) :=
  simulation.inScope (simulation.execEach fits depth statements)

end Machine.Simulation

end LineScript
