/-
Module: LineScript.Proofs.MentionedNames
Purpose: A run depends on the variables that its program mentions, and changes only its targets.
Trusted boundary: none
Main exports: Stmt.references, Stmt.targets, Machine.AgreeOn, halts_of_agree,
  runs_agree_on_mentioned_names
-/
import LineScript.Proofs.BlockScopes
import Mathlib.Data.List.Forall2

/-!
A program mentions the names that it reads and the names that it gives values: the targets of its
assignments, its declarations and its lines of input. Two runs from scopes that agree on all of them
go the same way, step by step, and their scopes go on agreeing. One run leaves every variable alone
whose name is not a target. Both are relations of machines that the steps of the program respect,
and only those steps, so they are instances of the simulation of runs with limited access.
-/

namespace LineScript

/-! ### The names that a program mentions -/

namespace Expr

/-- The names that an expression reads. -/
def references : Expr → List String
  | .literal _ => []
  | .reference name => [name.lexeme]
  | .assign _ value => value.references
  | .unary _ operand => operand.references
  | .binary left _ right => left.references ++ right.references
  | .logical left _ right => left.references ++ right.references
  | .group inner => inner.references

/-- The names that an expression assigns to. -/
def targets : Expr → List String
  | .literal _ => []
  | .reference _ => []
  | .assign name value => name.lexeme :: value.targets
  | .unary _ operand => operand.targets
  | .binary left _ right => left.targets ++ right.targets
  | .logical left _ right => left.targets ++ right.targets
  | .group inner => inner.targets

end Expr

namespace Stmt

mutual

/-- The names that a statement reads. -/
def references : Stmt → List String
  | .declare _ names =>
    names.flatMap fun declarator => declarator.initializer.elim [] Expr.references
  | .expression expr => expr.references
  | .print expr => expr.references
  | .scan _ _ => []
  | .branch _ condition thenBranch elseBranch =>
    condition.references ++ (thenBranch.references ++ elseReferences elseBranch)
  | .loop _ condition body => condition.references ++ body.references
  | .block statements => eachReferences statements

/-- The names that the other branch of a conditional reads, if there is one. -/
def elseReferences : Option Stmt → List String
  | none => []
  | some statement => statement.references

/-- The names that some statements read. -/
def eachReferences : List Stmt → List String
  | [] => []
  | statement :: rest => statement.references ++ eachReferences rest

end

mutual

/-- The names that a statement assigns to, scans or declares. -/
def targets : Stmt → List String
  | .declare _ names => names.flatMap fun declarator =>
    declarator.name.lexeme :: declarator.initializer.elim [] Expr.targets
  | .expression expr => expr.targets
  | .print expr => expr.targets
  | .scan first others => (first :: others).map Token.lexeme
  | .branch _ condition thenBranch elseBranch =>
    condition.targets ++ (thenBranch.targets ++ elseTargets elseBranch)
  | .loop _ condition body => condition.targets ++ body.targets
  | .block statements => eachTargets statements

/-- The names that the other branch of a conditional assigns to, scans or declares. -/
def elseTargets : Option Stmt → List String
  | none => []
  | some statement => statement.targets

/-- The names that some statements assign to, scan or declare. -/
def eachTargets : List Stmt → List String
  | [] => []
  | statement :: rest => statement.targets ++ eachTargets rest

end

/-- The names that occur in some statements. -/
def eachNames (statements : List Stmt) : List String :=
  eachReferences statements ++ eachTargets statements

end Stmt

/-! ### What the mentioned names allow -/

/-- The names may be read, and the targets may be stored and declared at any depth. -/
structure Access.Allows (access : Access) (references targets : List String) : Prop where
  reads : ∀ name ∈ references, access.reads name
  stores : ∀ name ∈ targets, access.stores name
  declares : ∀ depth, ∀ name ∈ targets, access.declares depth name

namespace Access.Allows

variable {access : Access} {references moreReferences targets moreTargets : List String}

/-- What allows the names of a whole allows those of a part. -/
theorem mono (allows : access.Allows references targets) (fewer : moreReferences ⊆ references)
    (fewerTargets : moreTargets ⊆ targets) : access.Allows moreReferences moreTargets where
  reads name member := allows.reads name (fewer member)
  stores name member := allows.stores name (fewerTargets member)
  declares depth name member := allows.declares depth name (fewerTargets member)

/-- What allows the names of two parts allows those of the first. -/
theorem left (allows : access.Allows (references ++ moreReferences) (targets ++ moreTargets)) :
    access.Allows references targets :=
  allows.mono (List.subset_append_left _ _) (List.subset_append_left _ _)

/-- It allows those of the second as well. -/
theorem right (allows : access.Allows (references ++ moreReferences) (targets ++ moreTargets)) :
    access.Allows moreReferences moreTargets :=
  allows.mono (List.subset_append_right _ _) (List.subset_append_right _ _)

end Access.Allows

variable {access : Access}

/-- An expression that mentions no names but those allowed respects the access. -/
theorem Expr.respects_of_allows (expr : Expr)
    (allows : access.Allows expr.references expr.targets) : expr.Respects access := by
  induction expr with
  | literal => trivial
  | reference name => exact allows.reads _ List.mem_cons_self
  | assign name value inductionHypothesis =>
    constructor
    · exact allows.stores _ List.mem_cons_self
    · exact inductionHypothesis (allows.mono (List.Subset.refl _) (List.subset_cons_self _ _))
  | unary operator operand inductionHypothesis => exact inductionHypothesis allows
  | binary left operator right leftHypothesis rightHypothesis =>
    exact ⟨leftHypothesis allows.left, rightHypothesis allows.right⟩
  | logical left operator right leftHypothesis rightHypothesis =>
    exact ⟨leftHypothesis allows.left, rightHypothesis allows.right⟩
  | group inner inductionHypothesis => exact inductionHypothesis allows

namespace Stmt

/-- The names that a declaration binds are its targets, and those of its initial values are
references. -/
theorem declarators_respect (depth : Nat) (type : VarType) (names : List Declarator)
    (allows :
      access.Allows (Stmt.declare type names).references (Stmt.declare type names).targets) :
    ∀ declarator ∈ names, declarator.Respects access depth := by
  intro declarator member
  rw [references, targets] at allows
  have own : access.Allows (declarator.initializer.elim [] Expr.references)
      (declarator.name.lexeme :: declarator.initializer.elim [] Expr.targets) :=
    allows.mono (fun _ inside => List.mem_flatMap_of_mem member inside)
      (fun _ inside => List.mem_flatMap_of_mem member inside)
  constructor
  · exact own.declares depth _ List.mem_cons_self
  · intro expr given
    rw [given] at own
    exact expr.respects_of_allows (own.mono (List.Subset.refl _) (List.subset_cons_self _ _))

mutual

/-- A statement that mentions no names but those allowed respects the access: the names mentioned
inside a tree are among those of the whole. -/
theorem respects_of_allows (depth : Nat) : ∀ statement : Stmt,
    access.Allows statement.references statement.targets → statement.Respects access depth
  | .declare type names, allows => declarators_respect depth type names allows
  | .expression expr, allows => expr.respects_of_allows allows
  | .print expr, allows => expr.respects_of_allows allows
  | .scan _ _, allows => fun _ member => allows.stores _ (List.mem_map_of_mem member)
  | .branch _ condition thenBranch elseBranch, allows =>
    ⟨condition.respects_of_allows allows.left,
      respects_of_allows depth thenBranch allows.right.left,
      elseRespects_of_allows depth elseBranch allows.right.right⟩
  | .loop _ condition body, allows =>
    ⟨condition.respects_of_allows allows.left, respects_of_allows depth body allows.right⟩
  | .block statements, allows => eachRespects_of_allows (depth + 1) statements allows

theorem elseRespects_of_allows (depth : Nat) : ∀ statement : Option Stmt,
    access.Allows (elseReferences statement) (elseTargets statement) →
      ElseRespects access depth statement
  | none, _ => trivial
  | some statement, allows => respects_of_allows depth statement allows

theorem eachRespects_of_allows (depth : Nat) : ∀ statements : List Stmt,
    access.Allows (eachReferences statements) (eachTargets statements) →
      EachRespects access depth statements
  | [], _ => trivial
  | statement :: rest, allows =>
    ⟨respects_of_allows depth statement allows.left,
      eachRespects_of_allows depth rest allows.right⟩

end

end Stmt

/-! ### Scopes that agree on some names -/

/-- Both scopes bind each of the names alike, or not at all. -/
def Scope.AgreeOn (names : String → Prop) (one two : Scope) : Prop :=
  ∀ name, names name → one.find? name = two.find? name

namespace Scope.AgreeOn

variable {names : String → Prop} {one two : Scope} {name : String}

/-- Scopes agree with themselves on any names. -/
theorem refl (scope : Scope) : AgreeOn names scope scope :=
  fun _ _ => rfl

/-- Whatever the scopes bound to the name before, they agree on it afterwards. -/
theorem bind (agree : AgreeOn names one two) (name : String) (binding : Binding) :
    AgreeOn names (one.bind name binding) (two.bind name binding) := by
  intro other listed
  by_cases same : other = name
  · rw [same, find?_bind_self, find?_bind_self]
  · rw [find?_bind_of_ne same, find?_bind_of_ne same]
    exact agree other listed

/-- Binding a name outside those agreed on may be done on one side alone. -/
theorem bind_other (agree : AgreeOn names one two) (unlisted : ¬ names name) (binding : Binding) :
    AgreeOn names one (two.bind name binding) := by
  intro other listed
  have different : other ≠ name := by
    rintro rfl
    exact unlisted listed
  rw [find?_bind_of_ne different]
  exact agree other listed

end Scope.AgreeOn

namespace Scopes

variable {names : String → Prop} {name : String} {list other : List Scope} {one two : Scopes}

/-- Names agreed on are found alike, in whichever scope they are bound. -/
theorem findIn_eq_of_agree (agree : List.Forall₂ (Scope.AgreeOn names) list other)
    (listed : names name) : findIn name list = findIn name other := by
  induction agree with
  | nil => rfl
  | cons scopesAgree _ inductionHypothesis =>
    rw [findIn, findIn, scopesAgree name listed, inductionHypothesis]

/-- Where a name agreed on is bound, it is bound on both sides, so that the replacement happens in
corresponding scopes. -/
theorem rebindIn_agree (agree : List.Forall₂ (Scope.AgreeOn names) list other)
    (listed : names name) (binding : Binding) :
    List.Forall₂ (Scope.AgreeOn names) (rebindIn name binding list)
      (rebindIn name binding other) := by
  induction agree with
  | nil => exact .nil
  | @cons scope mirror _ _ scopesAgree rest inductionHypothesis =>
    rw [rebindIn, rebindIn, scopesAgree name listed]
    cases mirror.find? name with
    | some _ => exact .cons (scopesAgree.bind name binding) rest
    | none => exact .cons scopesAgree inductionHypothesis

/-- Replacing the binding of any other name on one side keeps the agreement. -/
theorem rebindIn_agree_other (agree : List.Forall₂ (Scope.AgreeOn names) list other)
    (unlisted : ¬ names name) (binding : Binding) :
    List.Forall₂ (Scope.AgreeOn names) list (rebindIn name binding other) := by
  induction agree with
  | nil => exact .nil
  | @cons scope mirror _ _ scopesAgree rest inductionHypothesis =>
    rw [rebindIn]
    cases mirror.find? name with
    | some _ => exact .cons (scopesAgree.bind_other unlisted binding) rest
    | none => exact .cons scopesAgree inductionHypothesis

/-- As many scopes on both sides, each two of which agree on the names. -/
def AgreeOn (names : String → Prop) (one two : Scopes) : Prop :=
  List.Forall₂ (Scope.AgreeOn names) one.toList two.toList

namespace AgreeOn

theorem lookup_eq {name : Token} (agree : AgreeOn names one two) (listed : names name.lexeme) :
    one.lookup name = two.lookup name := by
  have found : one.find? name.lexeme = two.find? name.lexeme := findIn_eq_of_agree agree listed
  rw [lookup, lookup, found]

/-- Reading a name agreed on gives the same value or the same error. -/
theorem read_eq {name : Token} (agree : AgreeOn names one two) (listed : names name.lexeme) :
    one.read name = two.read name := by
  rw [Scopes.read, Scopes.read, agree.lookup_eq listed]

/-- Storing to a name agreed on keeps the agreement, if it is done on both sides. -/
theorem rebind (agree : AgreeOn names one two) (listed : names name) (binding : Binding) :
    AgreeOn names (one.rebind name binding) (two.rebind name binding) := by
  unfold AgreeOn
  rw [toList_rebind, toList_rebind]
  exact rebindIn_agree agree listed binding

/-- A declaration done on both sides keeps the agreement and may widen it. -/
theorem bind (agree : AgreeOn names one two) (name : String) (binding : Binding) :
    AgreeOn names ⟨one.innermost.bind name binding, one.enclosing⟩
      ⟨two.innermost.bind name binding, two.enclosing⟩ := by
  cases agree with
  | cons innermostAgree rest => exact .cons (innermostAgree.bind name binding) rest

/-- A fresh scope is the same on both sides. -/
theorem push (agree : AgreeOn names one two) : AgreeOn names one.push two.push :=
  .cons (.refl _) agree

/-- The scopes that are left when a block ends agree as before. -/
theorem pop (agree : AgreeOn names one two) : AgreeOn names one.pop two.pop := by
  obtain ⟨innermost, enclosing⟩ := one
  obtain ⟨mirror, around⟩ := two
  cases agree with
  | cons innermostAgree rest =>
    cases rest with
    | nil => exact .cons innermostAgree .nil
    | cons nextAgree outer => exact .cons nextAgree outer

end AgreeOn

end Scopes

/-! ### Two runs from scopes that agree -/

/-- The same input and output, and scopes that agree on the names. -/
structure Machine.AgreeOn (names : String → Prop) (_depth : Nat) (machine mirror : Machine) :
    Prop where
  scopes : machine.scopes.AgreeOn names mirror.scopes
  input : machine.input = mirror.input
  output : machine.output = mirror.output

/-- Nothing but the names is read, stored or declared. -/
def Access.only (names : String → Prop) : Access :=
  ⟨names, names, fun _ => names⟩

/-- A run that uses only the names goes the same way wherever the scopes agree on them. -/
theorem Machine.agreeOn_simulation (names : String → Prop) :
    SimulationFor (.only names) (AgreeOn names) where
  read depth name listed := by
    intro machine mirror agree
    rw [Run.read_apply, Run.read_apply, agree.scopes.read_eq listed]
    cases mirror.scopes.read name with
    | ok value => exact .ok value agree
    | error error => exact .error _ agree
  assign depth name value listed := by
    intro machine mirror agree
    rw [Run.assign_apply, Run.assign_apply, Scopes.assign_eq, Scopes.assign_eq,
      agree.scopes.lookup_eq listed]
    cases mirror.scopes.lookup name with
    | error error => exact .error _ agree
    -- A store is decided by the declared type and the value alone, and these are alike.
    | ok binding =>
      dsimp only
      cases binding.type.store name.lexeme (some value) (some name) with
      | error error => exact .error _ agree
      | ok stored => exact .ok () ⟨agree.scopes.rebind listed _, agree.input, agree.output⟩
  declare depth name type given _ := by
    intro machine mirror agree
    rw [Run.declare_apply, Run.declare_apply, Scopes.declare_eq, Scopes.declare_eq]
    cases given with
    | none => exact .ok () ⟨agree.scopes.bind _ _, agree.input, agree.output⟩
    | some value =>
      dsimp only
      cases type.store name.lexeme (some value) (some name) with
      | error error => exact .error _ agree
      | ok stored => exact .ok () ⟨agree.scopes.bind _ _, agree.input, agree.output⟩
  write depth text := by
    intro machine mirror agree
    exact .ok () ⟨agree.scopes, agree.input, congrArg (· ++ text) agree.output⟩
  nextLine depth token := by
    intro machine mirror agree
    rw [Run.nextLine, Run.nextLine, agree.input]
    split
    · exact .error _ agree
    · exact .ok _ ⟨agree.scopes, rfl, agree.output⟩
  push agree := ⟨agree.scopes.push, agree.input, agree.output⟩
  pop agree := ⟨agree.scopes.pop, agree.input, agree.output⟩

/-! ### Variables that no statement targets -/

/-- Nothing but the names is stored or declared. -/
def Access.storing (names : String → Prop) : Access :=
  ⟨fun _ => True, names, fun _ => names⟩

/-- The same machine twice, whose scopes behind those that were opened since the run began agree
with the given ones on all names but the targets. -/
def Machine.Spares (targets : String → Prop) (before : List Scope) (depth : Nat) :
    Machine → Machine → Prop :=
  Run.SameWith (fun machine => List.Forall₂ (Scope.AgreeOn fun name => ¬ targets name)
    (List.replicate depth Scope.empty ++ before) machine.scopes.toList) depth

/-- A run that stores and declares only targets leaves all other variables as they were. -/
theorem Machine.spares_simulation (targets : String → Prop) {before : List Scope}
    (nonempty : before ≠ []) : SimulationFor (.storing targets) (Spares targets before) where
  read depth name _ := (Run.simulated_iff_keeps _).2 (Run.Keeps.read name)
  assign depth name value target := by
    apply (Run.simulated_iff_keeps _).2
    intro machine spared
    rw [Run.assign_apply]
    split
    · rename_i assigned
      obtain ⟨binding, _, _, rfl⟩ := Scopes.assign_eq_ok_iff.mp assigned
      dsimp only [Run.final_ok]
      rw [Scopes.toList_rebind]
      exact Scopes.rebindIn_agree_other spared (not_not_intro target) _
    · exact spared
  declare depth name type given target := by
    apply (Run.simulated_iff_keeps _).2
    intro machine spared
    rw [Run.declare_apply]
    split
    · rename_i declared
      obtain ⟨stored, _, rfl⟩ := Scopes.declare_eq_ok_iff.mp declared
      generalize List.replicate depth Scope.empty ++ before = earlier at spared ⊢
      cases spared with
      | cons innermostAgree rest =>
        exact .cons (innermostAgree.bind_other (not_not_intro target) _) rest
    · exact spared
  write _ text := (Run.simulated_iff_keeps _).2 fun _ spared => spared
  nextLine _ token := by
    apply (Run.simulated_iff_keeps _).2
    intro machine spared
    unfold Run.nextLine
    split
    · exact spared
    · exact spared
  push := by
    rintro depth machine _ ⟨rfl, spared⟩
    exact ⟨rfl, .cons (.refl _) spared⟩
  pop := by
    rintro depth ⟨⟨innermost, enclosing⟩, input, output⟩ _ ⟨rfl, spared⟩
    cases spared with
    | cons _ rest =>
      -- There is a scope behind the opened ones, so the innermost one is not the outermost one.
      cases enclosing with
      | nil =>
        have none := List.append_eq_nil_iff.mp (List.forall₂_nil_right_iff.mp rest)
        exact absurd none.2 nonempty
      | cons next outer => exact ⟨rfl, rest⟩

/-! ### Whole programs -/

namespace Run

variable {α : Type} {related : Machine → Machine → Prop} {ending mirrored : Ending α}

theorem Fits.refl {lax : Prop} (fuel : Nat) : Fits lax fuel fuel :=
  .inl rfl

/-- Endings that agree leave machines that are related. -/
theorem Agree.final (alike : Agree False related ending mirrored) :
    related (final ending) (final mirrored) := by
  cases alike with
  | ok value ends => exact ends
  | error stop ends => exact ends
  | unfinished impossible => exact impossible.elim

/-- A run that agrees with a finished one is finished. -/
theorem Agree.finished (alike : Agree False related ending mirrored) (finished : Finished ending) :
    Finished mirrored := by
  cases alike with
  | ok value ends => exact finished_ok value _
  | error stop ends => exact finished_error.mpr (finished_error.mp finished)
  | unfinished impossible => exact impossible.elim

end Run

/-- The machine with the variables of a single scope. -/
def Machine.withVariables (machine : Machine) (scope : Scope) : Machine :=
  { machine with scopes := ⟨scope, []⟩ }

/-- The session with the variables of a single scope. -/
def Session.withVariables (session : Session) (scope : Scope) : Session :=
  { session with machine := session.machine.withVariables scope }

namespace Stmt

variable {program : List Stmt} {one two scope : Scope}

/-- A program mentions no name but those that it mentions, so it respects the access to just
these. -/
theorem eachNames_respect (program : List Stmt) (depth : Nat) :
    EachRespects (.only (· ∈ eachNames program)) depth program := by
  apply eachRespects_of_allows
  constructor
  · exact fun name member => List.mem_append_left _ member
  · exact fun name member => List.mem_append_right _ member
  · exact fun depth name member => List.mem_append_right _ member

/-- Likewise it stores to no name but its targets. -/
theorem eachTargets_respect (program : List Stmt) (depth : Nat) :
    EachRespects (.storing (· ∈ eachTargets program)) depth program := by
  apply eachRespects_of_allows
  constructor
  · exact fun _ _ => trivial
  · exact fun name member => member
  · exact fun depth name member => member

/-- Two machines that differ in unmentioned names alone run a program in step. -/
theorem execEach_agree (fuel : Nat) (machine : Machine)
    (agree : one.AgreeOn (· ∈ eachNames program) two) :
    Run.Agree False (Machine.AgreeOn (· ∈ eachNames program) 0)
      (execEach fuel program (machine.withVariables one))
      (execEach fuel program (machine.withVariables two)) := by
  apply (Machine.agreeOn_simulation _).execEach (.refl fuel) 0 program (eachNames_respect program 0)
  exact ⟨.cons agree .nil, rfl, rfl⟩

/-- A program halts wherever the mentioned names mean what they mean where it halts. -/
theorem halts_of_agree {machine : Machine} (agree : one.AgreeOn (· ∈ eachNames program) two)
    (halts : ∃ ending, EachEnds program (machine.withVariables one) ending) :
    ∃ ending, EachEnds program (machine.withVariables two) ending := by
  obtain ⟨ending, finished, enough, settled⟩ := halts
  have alike := execEach_agree enough machine agree
  have settlesHere : execEach enough program (machine.withVariables one) = ending :=
    settled enough (Nat.le_refl enough)
  rw [settlesHere] at alike
  exact ⟨_, eachEnds_of_finished (alike.finished finished)⟩

/-- A variable that no statement targets is bound at the end as it was at the start, whether the run
fails or not. -/
theorem execEach_spares (program : List Stmt) (fuel : Nat) (machine : Machine) (scope : Scope) :
    ∃ after : Scope, (Run.final (execEach fuel program (machine.withVariables scope))).scopes =
      ⟨after, []⟩ ∧ ∀ name ∉ eachTargets program, after.find? name = scope.find? name := by
  have simulation := Machine.spares_simulation (· ∈ eachTargets program) (List.cons_ne_nil scope [])
  have keeps := (Run.simulated_iff_keeps 0).1
    (simulation.execEach (Run.Fits.refl fuel) 0 program (eachTargets_respect program 0))
  have spared : List.Forall₂ (Scope.AgreeOn fun name => ¬ name ∈ eachTargets program) [scope]
      (Run.final (execEach fuel program (machine.withVariables scope))).scopes.toList :=
    keeps (machine.withVariables scope) (.cons (.refl _) .nil)
  cases ended : (Run.final (execEach fuel program (machine.withVariables scope))).scopes with
  | mk after enclosing =>
    rw [ended] at spared
    cases spared with
    | cons afterAgrees rest =>
      cases rest
      exact ⟨after, rfl, fun name untargeted => (afterAgrees name untargeted).symm⟩

end Stmt

namespace Session

/-- Endings that agree conclude sessions with the same log alike. -/
theorem conclude_agree {related : Machine → Machine → Prop} {ending mirrored : Run.Ending Unit}
    (alike : Run.Agree False related ending mirrored) (one two : Session)
    (sameLog : one.log = two.log) :
    (one.conclude ending).1 = (two.conclude mirrored).1 ∧
      (one.conclude ending).2.log = (two.conclude mirrored).2.log := by
  cases alike with
  | ok value ends => exact ⟨rfl, sameLog⟩
  | unfinished impossible => exact impossible.elim
  | error stop ends =>
    cases stop with
    | error error => exact ⟨rfl, congrArg (Log.addRuntime · error) sameLog⟩
    | breakdown cause => exact ⟨rfl, sameLog⟩
    | outOfFuel => exact ⟨rfl, sameLog⟩

/-- A run depends on the variables that its program mentions. Started with the same input, output
and log, from two scopes in which each name that occurs in the program means the same variable or
none, the program halts from both or from neither. With any fuel it has the same outcome, leaves the
same input unread and the same output and log, and ends with a single scope, in which the names that
occur in it still mean the same. Neither run changes a variable that is no target of an assignment,
a declaration or a line of input. -/
theorem runs_agree_on_mentioned_names (program : List Stmt) (session : Session) (one two : Scope)
    (agree : ∀ name ∈ Stmt.eachNames program, one.find? name = two.find? name) :
    ((∃ ending, Stmt.EachEnds program (session.withVariables one).machine ending) ↔
      ∃ ending, Stmt.EachEnds program (session.withVariables two).machine ending) ∧
    ∀ fuel,
      let first := (session.withVariables one).execute fuel program
      let second := (session.withVariables two).execute fuel program
      first.1 = second.1 ∧ first.2.log = second.2.log ∧
      first.2.machine.input = second.2.machine.input ∧
      first.2.machine.output = second.2.machine.output ∧
      ∃ after mirror : Scope,
        first.2.machine.scopes = ⟨after, []⟩ ∧ second.2.machine.scopes = ⟨mirror, []⟩ ∧
        (∀ name ∈ Stmt.eachNames program, after.find? name = mirror.find? name) ∧
        ∀ name ∉ Stmt.eachTargets program,
          after.find? name = one.find? name ∧ mirror.find? name = two.find? name := by
  constructor
  · constructor
    · exact Stmt.halts_of_agree agree
    · exact Stmt.halts_of_agree fun name member => (agree name member).symm
  · intro fuel first second
    have alike := Stmt.execEach_agree fuel session.machine agree
    have concluded :=
      conclude_agree alike (session.withVariables one) (session.withVariables two) rfl
    have final := alike.final
    obtain ⟨after, afterScopes, afterSpares⟩ :=
      Stmt.execEach_spares program fuel session.machine one
    obtain ⟨mirror, mirrorScopes, mirrorSpares⟩ :=
      Stmt.execEach_spares program fuel session.machine two
    have firstMachine : first.2.machine = Run.final _ := machine_execute fuel program _
    have secondMachine : second.2.machine = Run.final _ := machine_execute fuel program _
    rw [firstMachine, secondMachine]
    refine ⟨concluded.1, concluded.2, final.input, final.output, after, mirror, afterScopes,
      mirrorScopes, ?_, fun name other => ⟨afterSpares name other, mirrorSpares name other⟩⟩
    -- Both runs end with the root scope alone, so agreeing scopes means agreeing root scopes.
    have agreeing := final.scopes
    rw [afterScopes, mirrorScopes] at agreeing
    cases agreeing with
    | cons scopesAgree _ => exact scopesAgree

/-- A script that reads a limit and counts up to it. -/
def countingUp : String :=
  "SCRIPT AREA\nSTART SCRIPT\nDECLARE INT limit\nSCAN: limit\nREPEAT WHEN(count<limit)\n" ++
    "START REPEAT\ncount=count+1\nEND REPEAT\nPRINT: count\nEND SCRIPT\n"

/-- Two scopes that differ in a variable which the script does not mention. -/
def noted : Scope × Scope :=
  (⟨[("count", ⟨.int, some (.int 5)⟩), ("note", ⟨.string, none⟩)]⟩,
    ⟨[("note", ⟨.bool, some (.bool true)⟩), ("count", ⟨.int, some (.int 5)⟩)]⟩)

theorem countingUp_agrees_on_mentioned_names :
    ∃ program, (Program.parse (lex countingUp).tokens).program = some program ∧
      (∀ name ∈ Stmt.eachNames program, noted.1.find? name = noted.2.find? name) ∧
      "note" ∉ Stmt.eachTargets program ∧
      ((seeded.withVariables noted.2).execute 3 program).2.machine.output = "7" ∧
      ∃ after mirror : Scope, after.find? "note" = some ⟨.string, none⟩ ∧
        mirror.find? "note" = some ⟨.bool, some (.bool true)⟩ ∧
        ((seeded.withVariables noted.1).execute 3 program).2.machine.scopes = ⟨after, []⟩ ∧
        ((seeded.withVariables noted.2).execute 3 program).2.machine.scopes = ⟨mirror, []⟩ := by
  have runs : ∃ program, (Program.parse (lex countingUp).tokens).program = some program ∧
      ((∀ name ∈ Stmt.eachNames program, noted.1.find? name = noted.2.find? name) ∧
        "note" ∉ Stmt.eachTargets program ∧
        ((seeded.withVariables noted.1).execute 3 program).2.machine.output = "7") := by
    have computed : ((Program.parse (lex countingUp).tokens).program.map fun program =>
        decide ((∀ name ∈ Stmt.eachNames program, noted.1.find? name = noted.2.find? name) ∧
          "note" ∉ Stmt.eachTargets program ∧
          ((seeded.withVariables noted.1).execute 3 program).2.machine.output = "7")) =
        some true := by
      decide +kernel
    obtain ⟨program, parsed, holds⟩ := Option.map_eq_some_iff.mp computed
    exact ⟨program, parsed, of_decide_eq_true holds⟩
  obtain ⟨program, parsed, agree, spared, output⟩ := runs
  have alike := (runs_agree_on_mentioned_names program seeded noted.1 noted.2 agree).2 3
  obtain ⟨_, _, _, sameOutput, after, mirror, afterScopes, mirrorScopes, _, unchanged⟩ := alike
  have kept := unchanged "note" spared
  exact ⟨program, parsed, agree, spared, sameOutput ▸ output, after, mirror, kept.1, kept.2,
    afterScopes, mirrorScopes⟩

end Session

end LineScript
