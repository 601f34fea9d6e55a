/-
Module: LineScript.Proofs.SymbolIndex
Purpose: What an editor says about the variables of a script is what running the script makes them.
Trusted boundary: none
Main exports: Program.declared, lastDeclaration?, Machine.Declares, symbols_agree_with_run
-/
import LineScript.Editor.Workspace
import LineScript.Proofs.BlockScopes

/-!
An editor lists the declarations of a document without running it; a run binds one variable after
the other. Both read the same declarations in the same order, and in both the last declaration of a
name wins: the editor looks a name up from the end of its list, and a declaration replaces what the
scope had before. Nothing else in a program binds a name or changes the type of a variable. So when
a run has come to its end, the variables and their types are those that the editor shows.
-/

namespace LineScript

/-! ### The declarations of a program -/

/-- The names that a statement declares in the scope it stands in, with their types. -/
def Stmt.declared : Stmt → List (VarType × Declarator)
  | .declare type names => names.map fun declarator => (type, declarator)
  | _ => []

/-- The declarations of a program, in order. -/
def Program.declared (program : List Stmt) : List (VarType × Declarator) :=
  program.flatMap Stmt.declared

/-- The last declaration of a name among some declarations. -/
def lastDeclaration? (declared : List (VarType × Declarator)) (name : String) :
    Option (VarType × Declarator) :=
  declared.reverse.find? fun declaration => declaration.2.name.lexeme == name

/-- The last declaration of a name is in the second part, or else in the first. -/
theorem lastDeclaration?_append (first second : List (VarType × Declarator)) (name : String) :
    lastDeclaration? (first ++ second) name =
      (lastDeclaration? second name).or (lastDeclaration? first name) := by
  rw [lastDeclaration?, List.reverse_append, List.find?_append]
  rfl

/-- A name has a last declaration just when it is declared. -/
theorem lastDeclaration?_isSome {declared : List (VarType × Declarator)} {name : String} :
    (lastDeclaration? declared name).isSome ↔
      name ∈ declared.map fun declaration => declaration.2.name.lexeme := by
  simp [lastDeclaration?, List.find?_isSome]

theorem name_of_lastDeclaration? {declared : List (VarType × Declarator)} {name : String}
    {declaration : VarType × Declarator}
    (found : lastDeclaration? declared name = some declaration) :
    declaration.2.name.lexeme = name := by
  have fits := List.find?_some found
  simpa using fits

/-- A statement that is executable declares nothing. -/
theorem Stmt.declared_of_executable {statement : Stmt} (executable : statement.Executable) :
    statement.declared = [] := by
  cases statement with
  | declare => exact executable.elim
  | _ => rfl

theorem Program.declared_of_executable {program : List Stmt}
    (executable : Stmt.EachExecutable program) : declared program = [] := by
  induction program with
  | nil => rfl
  | cons statement rest inductionHypothesis =>
    rw [declared, List.flatMap_cons, Stmt.declared_of_executable executable.1, List.nil_append]
    exact inductionHypothesis executable.2

/-! ### What a run makes of the declarations -/

/-- The variables of one machine are typed as those of another, apart from the declarations made in
between: a declared name has the type of its last declaration. -/
def Machine.Declares (declared : List (VarType × Declarator)) (machine reached : Machine) : Prop :=
  ∀ name, (reached.scopes.innermost.find? name).map Binding.type =
    ((lastDeclaration? declared name).map Prod.fst).or
      ((machine.scopes.innermost.find? name).map Binding.type)

namespace Machine

variable {machine middle reached : Machine}

/-- Declarations that follow one another. -/
theorem Declares.append {first second : List (VarType × Declarator)}
    (begins : Declares first machine middle) (continues : Declares second middle reached) :
    Declares (first ++ second) machine reached := by
  intro name
  rw [continues name, begins name, lastDeclaration?_append, Option.map_or, Option.or_assoc]

/-- What declares nothing keeps the names and types of the innermost scope. -/
theorem declares_nil_of_signature
    (same : reached.scopes.innermost.signature = machine.scopes.innermost.signature) :
    Declares [] machine reached := by
  intro name
  rw [← Scope.lookup_signature, same, Scope.lookup_signature]
  rfl

end Machine

namespace Run

variable {machine reached : Machine}

/-- A declaration that succeeds leaves its name with its type. -/
theorem declares_declare {declarator : Declarator} {type : VarType} {given : Content}
    (declares : declare declarator.name type given machine = .ok () reached) :
    machine.Declares [(type, declarator)] reached := by
  have bound : ∃ stored, reached.scopes.innermost =
      machine.scopes.innermost.bind declarator.name.lexeme ⟨type, stored⟩ := by
    rw [declare_apply, Scopes.declare_eq] at declares
    cases given with
    | none =>
      cases declares
      exact ⟨none, rfl⟩
    | some value =>
      cases accepted : type.store declarator.name.lexeme (some value) (some declarator.name) with
      | error error => simp [accepted] at declares
      | ok stored =>
        simp only [accepted] at declares
        cases declares
        exact ⟨some stored, rfl⟩
  obtain ⟨stored, bound⟩ := bound
  intro name
  rw [bound]
  by_cases same : name = declarator.name.lexeme
  · simp [same, Scope.find?_bind_self, lastDeclaration?]
  · have other : ¬declarator.name.lexeme = name := fun equal => same equal.symm
    simp [Scope.find?_bind_of_ne same, lastDeclaration?, other]

/-- So do several names, one after the other; the last one counts if a name is repeated. -/
theorem declares_declareEach {type : VarType} {names : List Declarator}
    (ran : declareEach type names machine = .ok () reached) :
    machine.Declares (names.map fun declarator => (type, declarator)) reached := by
  induction names generalizing machine with
  | nil =>
    cases ran
    exact Machine.declares_nil_of_signature rfl
  | cons declarator rest inductionHypothesis =>
    obtain ⟨given, evaluated, initialized, ran⟩ := Action.bind_eq_ok.mp ran
    obtain ⟨_, declared, declares, ran⟩ := Action.bind_eq_ok.mp ran
    have kept := (keepsSignatures_initializer _).innermost_of_ok initialized
    have first := (Machine.declares_nil_of_signature kept).append (declares_declare declares)
    exact first.append (inductionHypothesis ran)

end Run

/-- A program that comes to its end has made its declarations and no other. -/
theorem Program.Ordered.declares {program : List Stmt} (ordered : Ordered program) {fuel : Nat}
    {machine reached : Machine} (ran : Stmt.execEach fuel program machine = .ok () reached) :
    machine.Declares (declared program) reached := by
  induction ordered generalizing machine with
  | statements executable =>
    rw [declared_of_executable executable]
    have kept := (Run.keepsSignatures_execEach fuel executable).innermost_of_ok ran
    exact Machine.declares_nil_of_signature kept
  | declaration _ inductionHypothesis =>
    rw [Stmt.execEach, Stmt.exec] at ran
    obtain ⟨_, middle, declares, ran⟩ := Action.bind_eq_ok.mp ran
    exact (Run.declares_declareEach declares).append (inductionHypothesis ran)

/-! ### What an editor makes of the declarations -/

namespace Editor

theorem symbolsOf_eq (uri : String) (statement : Stmt) :
    symbolsOf uri statement = statement.declared.map fun declaration =>
      Symbol.ofDeclarator uri declaration.1 declaration.2 := by
  cases statement with
  | declare type names => simp [symbolsOf, Stmt.declared]
  | _ => rfl

/-- The symbols of a program are those of its declarations. -/
theorem flatMap_symbolsOf (uri : String) (program : List Stmt) :
    program.flatMap (symbolsOf uri) = (Program.declared program).map fun declaration =>
      Symbol.ofDeclarator uri declaration.1 declaration.2 := by
  rw [Program.declared, List.map_flatMap]
  exact congrArg (program.flatMap ·) (funext (symbolsOf_eq uri))

/-- The last symbol of a name is that of its last declaration. -/
theorem getLast?_symbols (uri : String) (declared : List (VarType × Declarator)) (name : String) :
    ((declared.map fun declaration => Symbol.ofDeclarator uri declaration.1 declaration.2).filter
        fun symbol => symbol.name == name).getLast? =
      (lastDeclaration? declared name).map fun declaration =>
        Symbol.ofDeclarator uri declaration.1 declaration.2 := by
  rw [List.getLast?_eq_head?_reverse, ← List.filter_reverse, List.head?_filter, ← List.map_reverse,
    List.find?_map]
  rfl

theorem lookup_setEntry {α : Type} (key : String) (value : α) (entries : List (String × α)) :
    (setEntry key value entries).lookup key = some value := by
  induction entries with
  | nil => simp [setEntry]
  | cons entry rest inductionHypothesis =>
    rw [setEntry]
    by_cases here : entry.1 = key
    · simp [here]
    · have elsewhere : (key == entry.1) = false := by simpa using fun same => here same.symm
      rw [if_neg here, List.lookup_cons, elsewhere]
      exact inductionHypothesis

/-- In a document that was just opened, a name is looked up among the symbols of its text. -/
theorem Workspace.lookup?_openDocument {uri text : String} {symbols : List Symbol}
    (analyzed : (analyze uri text).symbols = some symbols) (workspace : Workspace)
    (name : String) :
    (workspace.openDocument uri text).2.lookup? uri name =
      (symbols.filter fun symbol => symbol.name == name).getLast? := by
  simp [openDocument, reindex, analyzed, lookup?, Workspace.symbols, lookup_setEntry]

end Editor

/-! ### Agreement -/

namespace Session

variable {fuel : Nat} {session final : Session}

/-- An execution that reports no runtime error has come to the end of its program. -/
theorem execEach_of_executed {program : List Stmt}
    (executed : session.execute fuel program = (.executed, final))
    (clean : final.log.hasRuntimeError = false) :
    Stmt.execEach fuel program session.machine = .ok () final.machine := by
  rw [execute_eq_conclude] at executed
  cases ending : Stmt.execEach fuel program session.machine with
  | ok value machine =>
    rw [ending] at executed
    cases executed
    rfl
  | error stop machine =>
    rw [ending] at executed
    cases stop with
    | error error =>
      cases executed
      cases clean
    | breakdown cause => cases executed
    | outOfFuel => cases executed

/-- A text that is executed in a new session and reports no runtime error is a program that has come
to its end. -/
theorem execEach_of_run_start {dump : Bool} {source : String} {input : Input}
    (ran : (start input).run fuel dump source = (.executed, final))
    (clean : final.log.hasRuntimeError = false) :
    ∃ program output, (Program.parse (lex source).tokens).program = some program ∧
      Stmt.execEach fuel program ⟨Scopes.root, input, output⟩ = .ok () final.machine := by
  unfold run at ran
  dsimp only at ran
  split at ran
  · rename_i program _ parsed
    split at ran
    · exact ⟨program, _, parsed, execEach_of_executed ran clean⟩
    · exact ⟨program, _, parsed, execEach_of_executed ran clean⟩
  · cases ran

end Session

namespace Editor

/-- The symbols of a text that ran without a runtime error are its variables: they have the names
that the outermost scope binds in the end, and the last symbol of a name, which is the one that is
looked up in the opened document, shows the type that the name has there. -/
theorem symbols_agree_with_run (fuel : Nat) (dump : Bool) (source uri : String) (input : Input)
    (final : Session) (ran : (Session.start input).run fuel dump source = (.executed, final))
    (clean : final.log.hasRuntimeError = false) :
    ∃ symbols, (analyze uri source).symbols = some symbols ∧
      (∀ name, name ∈ symbols.map Symbol.name ↔
        name ∈ final.machine.scopes.outermost.bindings.map Prod.fst) ∧
      ∀ name binding, final.machine.scopes.outermost.find? name = some binding →
        ∃ symbol, (symbols.filter fun symbol => symbol.name == name).getLast? = some symbol ∧
          (∀ workspace : Workspace,
            (workspace.openDocument uri source).2.lookup? uri name = some symbol) ∧
          symbol.detail = "DECLARE " ++ binding.type.label ++ " " ++ name := by
  obtain ⟨program, output, parsed, ended⟩ := Session.execEach_of_run_start ran clean
  have ordered := Program.parse_ordered parsed
  have root : final.machine.AtRoot := (ordered.keeps_atRoot fuel).of_ok ended rfl
  -- The run and the index both keep the last declaration of a name.
  have types : ∀ name, (final.machine.scopes.innermost.find? name).map Binding.type =
      (lastDeclaration? (Program.declared program) name).map Prod.fst := by
    intro name
    simpa [Scopes.root, Scope.empty, Scope.find?] using ordered.declares ended name
  have analyzed : (analyze uri source).symbols =
      some ((Program.declared program).map fun declaration =>
        Symbol.ofDeclarator uri declaration.1 declaration.2) := by
    simp [analyze, parsed, flatMap_symbolsOf]
  rw [Scopes.outermost_of_isRoot root]
  refine ⟨_, analyzed, fun name => ?_, fun name binding bound => ?_⟩
  -- The two sides list the names for which there is a last declaration.
  · rw [← Scope.find?_isSome_iff_mem, ← Option.isSome_map, types name, Option.isSome_map,
      lastDeclaration?_isSome]
    simp [Symbol.ofDeclarator]
  · have type := types name
    rw [bound, Option.map_some, eq_comm, Option.map_eq_some_iff] at type
    obtain ⟨declaration, last, sameType⟩ := type
    have found := (getLast?_symbols uri (Program.declared program) name).trans
      (congrArg (Option.map _) last)
    refine ⟨_, found, fun workspace => ?_, ?_⟩
    · rw [Workspace.lookup?_openDocument analyzed]
      exact found
    · rw [← sameType, ← name_of_lastDeclaration? last]
      rfl

/-- A script that declares a name twice, with different types. -/
def redeclaring : String :=
  "SCRIPT AREA\nSTART SCRIPT\nDECLARE INT x=1, y\nDECLARE FLOAT x\nSCAN: y\nx=y\nEND SCRIPT\n"

theorem redeclaring_symbols_agree_with_run :
    ∃ final binding symbol,
      (Session.start ⟨['4', '\n'], false⟩).run 0 false redeclaring = (.executed, final) ∧
      final.log.hasRuntimeError = false ∧
      final.machine.scopes.outermost.find? "x" = some binding ∧ binding.type = .float ∧
      (Workspace.empty.openDocument "x.script" redeclaring).2.lookup? "x.script" "x" =
        some symbol ∧
      symbol.detail = "DECLARE FLOAT x" := by
  let run := (Session.start ⟨['4', '\n'], false⟩).run 0 false redeclaring
  have ran : run = (.executed, run.2) := Prod.ext (by decide +kernel) rfl
  have clean : run.2.log.hasRuntimeError = false := by decide +kernel
  have typed : (run.2.machine.scopes.outermost.find? "x").map Binding.type = some .float := by
    decide +kernel
  obtain ⟨binding, bound, type⟩ := Option.map_eq_some_iff.mp typed
  obtain ⟨symbols, _, _, agree⟩ :=
    symbols_agree_with_run 0 false redeclaring "x.script" _ run.2 ran clean
  obtain ⟨symbol, _, found, detail⟩ := agree "x" binding bound
  rw [type] at detail
  exact ⟨run.2, binding, symbol, ran, clean, bound, type, found Workspace.empty, detail⟩

end Editor

end LineScript
