/-
Module: LineScript.Proofs.ScopeStack
Purpose: A statement leaves the scopes it is run in standing, and declares only in the innermost.
Trusted boundary: none
Main exports: ownDeclarations, Scopes.GrownBy, Invokes.grown, Stmt.exec_leaves_scopes_standing
-/
import LineScript.Proofs.Reaches
import LineScript.Proofs.ScopeSignature

/-!
Any tree may be run as a statement, also one that no source text has, with declarations inside
blocks and branches. A run of it opens scopes and closes them again, however it ends, and the scopes
it was started in stand below all the time. Of these only the innermost one is ever declared in, and
only what the statement declares outside all blocks. `Scopes.GrownBy` says so of the scopes in front
of a run and behind it, `Scopes.StandsUnder` of all the scopes there are on the way.
-/

namespace LineScript

open Run

/-! ### What a statement declares in the scope it is run in -/

namespace Stmt

mutual

/-- The names that a statement declares outside all blocks, with their types. -/
def ownDeclarations : Stmt → List (String × VarType)
  | .declare type names => names.map fun declarator => (declarator.name.lexeme, type)
  | .expression _ => []
  | .print _ => []
  | .scan _ _ => []
  | .branch _ _ thenBranch elseBranch =>
    thenBranch.ownDeclarations ++ elseOwnDeclarations elseBranch
  | .loop _ _ body => body.ownDeclarations
  | .block _ => []

/-- The names that the other branch of a conditional declares outside all blocks. -/
def elseOwnDeclarations : Option Stmt → List (String × VarType)
  | none => []
  | some statement => statement.ownDeclarations

end

end Stmt

/-- What a task declares in the scope it is run in. -/
def Task.ownDeclarations : Task → List (String × VarType)
  | .eval _ => []
  | .exec statement => statement.ownDeclarations
  | .execEach statements => statements.flatMap Stmt.ownDeclarations
  | .declareEach type names => names.map fun declarator => (declarator.name.lexeme, type)
  | .assignEach _ => []
  | .rounds _ _ body _ => body.ownDeclarations

/-! ### Scopes in front of a run and behind it -/

/-- As many scopes as before. Those around the innermost one have the names and types they had, and
a name of the innermost one has the type it had, if any, or one with which it was declared. -/
structure Scopes.GrownBy (declared : List (String × VarType)) (before after : Scopes) : Prop where
  around : after.enclosing.map Scope.signature = before.enclosing.map Scope.signature
  inside : ∀ name, after.innermost.signature.lookup name = before.innermost.signature.lookup name ∨
    ∃ type, (name, type) ∈ declared ∧ after.innermost.signature.lookup name = some type

namespace Scopes.GrownBy

variable {declared more : List (String × VarType)} {before middle after : Scopes}

/-- Where no signature changed, nothing has grown. -/
theorem of_signatures (same : after.signatures = before.signatures) :
    GrownBy declared before after := by
  obtain ⟨inside, around⟩ := List.cons.inj same
  exact ⟨around, fun name => .inl (congrArg _ inside)⟩

/-- Growth by some declarations is growth by more of them. -/
theorem mono (grown : GrownBy declared before after) (listed : declared ⊆ more) :
    GrownBy more before after := by
  constructor
  · exact grown.around
  · intro name
    rcases grown.inside name with same | ⟨type, member, found⟩
    · exact .inl same
    · exact .inr ⟨type, listed member, found⟩

/-- Growth in two steps, each by the same declarations. -/
theorem trans (first : GrownBy declared before middle) (second : GrownBy declared middle after) :
    GrownBy declared before after := by
  constructor
  · exact second.around.trans first.around
  · intro name
    rcases second.inside name with same | later
    · rw [same]
      exact first.inside name
    · exact .inr later

/-- Whatever is declared in an opened scope, the scopes below it keep their names and types. -/
theorem of_push (grown : GrownBy declared before.push after) :
    after.pop.signatures = before.signatures ∧
      after.toList = after.innermost :: after.pop.toList := by
  obtain ⟨innermost, enclosing⟩ := after
  have around : enclosing.map Scope.signature = before.signatures := grown.around
  cases enclosing with
  | nil => exact absurd around.symm before.signatures_ne_nil
  | cons next rest => exact ⟨around, rfl⟩

end Scopes.GrownBy

/-! ### What actions declare -/

namespace Run

variable {α β : Type} {declared more : List (String × VarType)}

/-- However the action ends, the scopes have grown by no more than the given declarations. -/
def Grows (declared : List (String × VarType)) (action : Run α) : Prop :=
  ∀ machine, Scopes.GrownBy declared machine.scopes (final (action machine)).scopes

/-- What keeps signatures grows by nothing. -/
theorem KeepsSignatures.grows {action : Run α} (keeps : KeepsSignatures action) :
    Grows declared action :=
  fun machine => .of_signatures (keeps machine)

/-- An action that steps keep in related scopes declares nothing. -/
theorem grows_of_framed {action : Run α}
    (framed : ∀ frame, Machine.Simulation (Machine.Framed frame) →
      Simulated False (Machine.Framed frame 0) action action) : Grows declared action :=
  (keepsSignatures_of_framed framed).grows

namespace Grows

theorem mono {action : Run α} (grows : Grows declared action) (listed : declared ⊆ more) :
    Grows more action :=
  fun machine => (grows machine).mono listed

theorem of_ok {action : Run α} {machine reached : Machine} {value : α}
    (grows : Grows declared action) (ending : action machine = .ok value reached) :
    Scopes.GrownBy declared machine.scopes reached.scopes := by
  have grown := grows machine
  rwa [ending] at grown

/-- Two actions that grow by some declarations do so one after the other. -/
theorem bind {action : Run α} {next : α → Run β} (first : Grows declared action)
    (second : ∀ value, Grows declared (next value)) : Grows declared (action >>= next) := by
  intro machine
  have grown := first machine
  rw [Action.bind_apply]
  cases ending : action machine with
  | ok value middle =>
    rw [ending] at grown
    exact grown.trans (second value middle)
  | error stop middle =>
    rw [ending] at grown
    exact grown

/-- A loop grows by what its condition and its body declare, however many rounds there are. -/
theorem whileLoop {test : Run Bool} {action : Run Unit} (tests : Grows declared test)
    (acts : Grows declared action) (rounds : Nat) :
    Grows declared (whileLoop test action rounds) := by
  induction rounds with
  | zero => exact fun machine => .of_signatures rfl
  | succ rounds inductionHypothesis =>
    apply tests.bind
    intro truth
    cases truth with
    | true => exact acts.bind fun _ => inductionHypothesis
    | false => exact fun machine => .of_signatures rfl

/-- What an action declares in a scope of its own is gone when it ends. -/
theorem inScope {action : Run α} (grows : Grows declared action) :
    KeepsSignatures (inScope action) := by
  intro machine
  have grown := grows { machine with scopes := machine.scopes.push }
  unfold Run.inScope
  cases ending : action { machine with scopes := machine.scopes.push } with
  | ok value reached =>
    rw [ending] at grown
    exact grown.of_push.1
  | error stop reached =>
    rw [ending] at grown
    exact grown.of_push.1

end Grows

/-- A declaration adds its name to the innermost scope, with its type. -/
theorem declare_grows {name : Token} {type : VarType} (listed : (name.lexeme, type) ∈ declared)
    (given : Content) : Grows declared (declare name type given) := by
  intro machine
  rw [declare_apply]
  split
  · rename_i scopes succeeded
    obtain ⟨stored, _, rfl⟩ := Scopes.declare_eq_ok_iff.mp succeeded
    constructor
    · rfl
    · intro other
      rw [final_ok, Scope.lookup_signature, Scope.lookup_signature]
      by_cases same : other = name.lexeme
      · rw [same, Scope.find?_bind_self]
        exact .inr ⟨type, listed, rfl⟩
      · rw [Scope.find?_bind_of_ne same]
        exact .inl rfl
  · exact .of_signatures rfl

/-- A declaration of several names adds each of them. -/
theorem declareEach_grows (type : VarType) (names : List Declarator)
    (listed : ∀ declarator ∈ names, (declarator.name.lexeme, type) ∈ declared) :
    Grows declared (declareEach type names) := by
  induction names with
  | nil => exact fun machine => .of_signatures rfl
  | cons declarator rest inductionHypothesis =>
    obtain ⟨first, others⟩ := List.forall_mem_cons.mp listed
    apply (keepsSignatures_initializer _).grows.bind
    intro given
    exact (declare_grows first given).bind fun _ => inductionHypothesis others

end Run

/-! ### What statements declare -/

namespace Stmt

mutual

/-- A statement grows by its own declarations alone: a block hides what is declared in it, since its
scope is closed at its end. -/
theorem exec_grows (fuel : Nat) :
    ∀ statement : Stmt, Grows statement.ownDeclarations (statement.exec fuel)
  | .declare type names => by
    apply declareEach_grows
    intro declarator member
    exact List.mem_map_of_mem member
  | .expression expr =>
    grows_of_framed fun _ simulation =>
      (simulation.eval 0 expr).bind fun _ => Simulated.pure ()
  | .print expr => grows_of_framed fun _ simulation => simulation.print 0 expr
  | .scan first others => grows_of_framed fun _ simulation => simulation.scan 0 first others
  | .branch keyword condition thenBranch elseBranch => by
    apply (keepsSignatures_evalCondition keyword condition).grows.bind
    intro truth
    cases truth with
    | true => exact (exec_grows fuel thenBranch).mono (List.subset_append_left _ _)
    | false => exact (execElse_grows fuel elseBranch).mono (List.subset_append_right _ _)
  | .loop keyword condition body =>
    (keepsSignatures_evalCondition keyword condition).grows.whileLoop (exec_grows fuel body) fuel
  | .block statements => (execEach_grows fuel statements).inScope.grows

theorem execElse_grows (fuel : Nat) :
    ∀ statement : Option Stmt, Grows (elseOwnDeclarations statement) (execElse fuel statement)
  | none => fun _ => .of_signatures rfl
  | some statement => exec_grows fuel statement

theorem execEach_grows (fuel : Nat) :
    ∀ statements : List Stmt, Grows (statements.flatMap ownDeclarations) (execEach fuel statements)
  | [] => fun _ => .of_signatures rfl
  | statement :: rest =>
    ((exec_grows fuel statement).mono (List.subset_append_left _ _)).bind fun _ =>
      (execEach_grows fuel rest).mono (List.subset_append_right _ _)

end

end Stmt

/-- Each task grows by its own declarations. -/
theorem Task.run_grows (fuel : Nat) (task : Task) : Grows task.ownDeclarations (task.run fuel) := by
  cases task with
  | eval expr =>
    exact grows_of_framed fun _ simulation =>
      (simulation.eval 0 expr).bind fun _ => Simulated.pure ()
  | exec statement => exact statement.exec_grows fuel
  | execEach statements => exact Stmt.execEach_grows fuel statements
  | declareEach type names =>
    exact declareEach_grows type names fun _ member => List.mem_map_of_mem member
  | assignEach pairs => exact grows_of_framed fun _ simulation => simulation.assignEach 0 pairs
  | rounds keyword condition body left =>
    exact (keepsSignatures_evalCondition keyword condition).grows.whileLoop
      (body.exec_grows fuel) left

/-! ### Scopes on the way -/

/-- Under the scopes that were opened since, those that there were before still stand. -/
def Scopes.StandsUnder (declared : List (String × VarType)) (before now : Scopes) : Prop :=
  ∃ (opened : List Scope) (kept : Scopes),
    now.toList = opened ++ kept.toList ∧ GrownBy declared before kept

namespace Scopes.StandsUnder

variable {declared inner : List (String × VarType)} {before middle now : Scopes}

/-- Where nothing was opened, growth is all there is to tell. -/
theorem of_grown (grown : GrownBy declared before now) : StandsUnder declared before now :=
  ⟨[], now, rfl, grown⟩

/-- What stands under a later moment stands under an earlier one. -/
theorem after (grown : GrownBy declared before middle) (listed : inner ⊆ declared)
    (stands : StandsUnder inner middle now) : StandsUnder declared before now := by
  obtain ⟨opened, kept, whole, later⟩ := stands
  exact ⟨opened, kept, whole, grown.trans (later.mono listed)⟩

/-- Under a scope opened since, the scopes before it stand unchanged. -/
theorem of_push (stands : StandsUnder inner before.push now) : StandsUnder declared before now := by
  obtain ⟨opened, kept, whole, grown⟩ := stands
  obtain ⟨same, shape⟩ := grown.of_push
  exists opened ++ [kept.innermost], kept.pop
  constructor
  · rw [whole, shape, List.append_assoc, List.singleton_append]
  · exact .of_signatures same

end Scopes.StandsUnder

namespace Call

variable {fuel : Nat} {call inner : Call}

/-- A call is made from the scopes of the calling one, grown by declarations of its own, or from
inside a scope that is opened for it. -/
theorem Invokes.grown (invokes : Invokes fuel call inner) :
    (call.machine.scopes.GrownBy call.task.ownDeclarations inner.machine.scopes ∧
        inner.task.ownDeclarations ⊆ call.task.ownDeclarations) ∨
      inner.machine.scopes = call.machine.scopes.push := by
  cases invokes with
  -- These calls stand where their caller stands; the cases below look at what ran in between.
  | group | assigned | operand | leftOperand | leftSide | expression | printed | declaration
  | initializer | condition | loop | test =>
    exact .inl ⟨.of_signatures rfl, by simp [Task.ownDeclarations, Stmt.ownDeclarations]⟩
  | rightOperand evaluated =>
    exact .inl ⟨(keepsSignatures_eval _).grows.of_ok evaluated, List.nil_subset _⟩
  | rightSide evaluated =>
    exact .inl ⟨(keepsSignatures_eval _).grows.of_ok evaluated, List.nil_subset _⟩
  | otherNames evaluated declared =>
    left
    constructor
    · apply ((keepsSignatures_initializer _).grows.of_ok evaluated).trans
      exact (declare_grows List.mem_cons_self _).of_ok declared
    · exact List.subset_cons_self _ _
  -- Reading and storing keep the signatures, so nothing is declared between the two calls.
  | scanned read =>
    exact .inl ⟨(keepsSignatures_readValues _).grows.of_ok read, List.nil_subset _⟩
  | otherStores stored =>
    exact .inl ⟨(keepsSignatures_assign _ _).grows.of_ok stored, List.nil_subset _⟩
  | thenBranch tested =>
    exact .inl ⟨(keepsSignatures_evalCondition _ _).grows.of_ok tested,
      List.subset_append_left _ _⟩
  | elseBranch tested =>
    exact .inl ⟨(keepsSignatures_evalCondition _ _).grows.of_ok tested,
      List.subset_append_right _ _⟩
  | body tested =>
    exact .inl ⟨(keepsSignatures_evalCondition _ _).grows.of_ok tested, List.Subset.refl _⟩
  | otherRounds tested ran =>
    left
    constructor
    · apply ((keepsSignatures_evalCondition _ _).grows.of_ok tested).trans
      exact (Stmt.exec_grows fuel _).of_ok ran
    · exact List.Subset.refl _
  | block => exact .inr rfl
  | first => exact .inl ⟨.of_signatures rfl, List.subset_append_left _ _⟩
  | others ran =>
    have grown := (Stmt.exec_grows fuel _).of_ok ran
    exact .inl ⟨grown.mono (List.subset_append_left _ _), List.subset_append_right _ _⟩

/-- What stands while an inner call runs stands while the outer one does: a call may open a scope,
and none closes one that it did not open. -/
theorem Reaches.stands {now : Scopes} (reaches : Reaches fuel call inner)
    (stands : inner.machine.scopes.StandsUnder inner.task.ownDeclarations now) :
    call.machine.scopes.StandsUnder call.task.ownDeclarations now := by
  induction reaches using Relation.ReflTransGen.head_induction_on with
  | refl => exact stands
  | head invokes _ inductionHypothesis =>
    rcases invokes.grown with ⟨grown, listed⟩ | opened
    · exact .after grown listed inductionHypothesis
    · rw [opened] at inductionHypothesis
      exact .of_push inductionHypothesis

/-- The scopes that a run was started in stand below all others as long as it goes on. -/
theorem Visits.stands {machine : Machine} (visits : Visits fuel call machine) :
    call.machine.scopes.StandsUnder call.task.ownDeclarations machine.scopes := by
  obtain ⟨inner, reached, starts | ends⟩ := visits
  · rw [starts]
    exact reached.stands (.of_grown (.of_signatures rfl))
  · rw [ends]
    exact reached.stands (.of_grown (inner.task.run_grows fuel inner.machine))

end Call

/-- However a statement ends, all scopes that it was started in are there again and no other. Those
around the innermost one have the variables they had, with the types they had. The innermost one has
those too, but for what the statement declares outside all blocks, and a block changes no variable's
type there either. While the statement runs, no scope that it was started in is ever closed: they
stand, changed as little, under the scopes that it has opened. -/
theorem Stmt.exec_leaves_scopes_standing (fuel : Nat) (statement : Stmt) (machine : Machine) :
    (final (statement.exec fuel machine)).scopes.toList.length = machine.scopes.toList.length ∧
    (final (statement.exec fuel machine)).scopes.enclosing.map Scope.signature =
      machine.scopes.enclosing.map Scope.signature ∧
    (∀ name,
      (final (statement.exec fuel machine)).scopes.innermost.signature.lookup name =
          machine.scopes.innermost.signature.lookup name ∨
        ∃ type, (name, type) ∈ statement.ownDeclarations ∧
          (final (statement.exec fuel machine)).scopes.innermost.signature.lookup name =
            some type) ∧
    (∀ statements, (final ((Stmt.block statements).exec fuel machine)).scopes.signatures =
      machine.scopes.signatures) ∧
    ∀ moment, Call.Visits fuel ⟨.exec statement, machine⟩ moment →
      machine.scopes.StandsUnder statement.ownDeclarations moment.scopes := by
  have grown := statement.exec_grows fuel machine
  refine ⟨?_, grown.around, grown.inside, fun statements => ?_, fun moment visited => ?_⟩
  · have around := congrArg List.length grown.around
    rw [List.length_map, List.length_map] at around
    exact congrArg Nat.succ around
  · exact (execEach_grows fuel statements).inScope machine
  · exact visited.stands

end LineScript
