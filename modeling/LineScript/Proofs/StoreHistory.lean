/-
Module: LineScript.Proofs.StoreHistory
Purpose: What a name reads as is told by all that was done to the scopes before.
Trusted boundary: none
Main exports: Operation, Ledger, FollowEach, Ledger.Answers, Operation.history_decides
-/
import LineScript.Proofs.ScopeSignature
import LineScript.Proofs.StoreTyping
import Mathlib.Data.List.Forall2

/-!
Scopes are opened and closed, and variables are declared, assigned, read and looked up, in any order
and whether it succeeds or not. A ledger lists what was stored in one scope since it was opened. The
ledgers of a history are written down without looking at any scope: of a declaration and an
assignment only the conversion to the declared type is asked. Each scope holds what its ledger says,
which one operation preserves and so every history. Hence reading a name gives what was stored last
in the innermost scope that declares it.
-/

namespace LineScript

/-! ### Operations on scopes -/

/-- Something that is done to scopes. -/
inductive Operation where
  | push
  | pop
  | declare (name : Token) (type : VarType) (given : Content)
  | read (name : Token)
  | assign (name : Token) (given : Content)
  | lookup (name : Token)

namespace Operation

/-- Performs an operation on the scopes of a machine. What it finds is dropped. -/
def perform : Operation → Run Unit
  | .push => modify fun machine => { machine with scopes := machine.scopes.push }
  | .pop => modify fun machine => { machine with scopes := machine.scopes.pop }
  | .declare name type given => Run.declare name type given
  | .read name => do
    let _ ← Run.read name
  | .assign name given => do
    let (_, scopes) ← Run.ofResult ((← get).scopes.assign name given)
    modify fun machine => { machine with scopes := scopes }
  | .lookup name => do
    let _ ← Run.ofResult ((← get).scopes.lookup name)

/-- The machine behind some operations, each performed however those before it ended. -/
def performAll (history : List Operation) (machine : Machine) : Machine :=
  history.foldl (fun reached operation => Run.final (operation.perform reached)) machine

end Operation

/-! ### Ledgers -/

/-- Something that was stored in a scope. -/
inductive Entry where
  | declared (name : String) (type : VarType) (stored : Content)
  | assigned (name : String) (stored : Value)

namespace Entry

/-- The name of the variable in which it was stored. -/
def name : Entry → String
  | .declared name _ _ => name
  | .assigned name _ => name

/-- The value that was stored, if there was one. -/
def stored : Entry → Content
  | .declared _ _ stored => stored
  | .assigned _ stored => some stored

/-- The type that the entry gives to a name. -/
def typeOf? (name : String) : Entry → Option VarType
  | .declared other type _ => if other = name then some type else none
  | .assigned _ _ => none

end Entry

/-- All that was stored in one scope since it was opened, the latest first. -/
abbrev Ledger := List Entry

namespace Ledger

/-- The name is declared in the scope. -/
def Declares (name : String) (ledger : Ledger) : Prop :=
  ∃ type stored, Entry.declared name type stored ∈ ledger

/-- The type with which a name was declared last. -/
def typeOf? (name : String) (ledger : Ledger) : Option VarType :=
  ledger.findSome? (Entry.typeOf? name)

/-- The last entry about a name. -/
def last? (name : String) (ledger : Ledger) : Option Entry :=
  ledger.find? fun entry => entry.name == name

/-- The variable that the ledger tells of. -/
def binding? (name : String) (ledger : Ledger) : Option Binding :=
  (typeOf? name ledger).map fun type => ⟨type, (last? name ledger).bind Entry.stored⟩

/-- Enters an assignment into the innermost of some ledgers that declares the name, if there is one
and the value is accepted there. -/
def enter (name : String) (given : Content) : List Ledger → List Ledger
  | [] => []
  | ledger :: rest =>
    match typeOf? name ledger with
    | none => ledger :: enter name given rest
    | some type =>
      match type.accept given with
      | .ok stored => (.assigned name stored :: ledger) :: rest
      | .error _ => ledger :: rest

/-- Ledgers after one more operation, from the inside to the outside. -/
def record (ledgers : List Ledger) : Operation → List Ledger
  | .push => [] :: ledgers
  | .pop =>
    match ledgers with
    | _ :: next :: rest => next :: rest
    | outermost => outermost
  | .declare name type given =>
    match type.initial? given with
    | some stored => ledgers.modifyHead (.declared name.lexeme type stored :: ·)
    | none => ledgers
  | .read _ => ledgers
  | .assign name given => enter name.lexeme given ledgers
  | .lookup _ => ledgers

/-- An entry is the last one about a name in the innermost ledger that declares the name. -/
def Last (name : String) (ledgers : List Ledger) (entry : Entry) : Prop :=
  ∃ inner newer older outer,
    ledgers = inner ++ (newer ++ entry :: older) :: outer ∧
    (∀ ledger ∈ inner, ¬ Declares name ledger) ∧ Declares name (newer ++ entry :: older) ∧
    entry.name = name ∧ ∀ later ∈ newer, later.name ≠ name

end Ledger

namespace Entry

/-- A declaration fixes a type, and an assignment does not. -/
theorem typeOf?_eq_some_iff {entry : Entry} {name : String} {type : VarType} :
    entry.typeOf? name = some type ↔ ∃ stored, entry = .declared name type stored := by
  cases entry with
  | declared other found stored =>
    by_cases same : other = name
    · simp [typeOf?, same]
    · simp [typeOf?, same]
  | assigned other stored => simp [typeOf?]

theorem typeOf?_of_ne {entry : Entry} {name : String} (different : entry.name ≠ name) :
    entry.typeOf? name = none := by
  cases entry with
  | declared other type stored => exact if_neg different
  | assigned other stored => rfl

end Entry

namespace Ledger

variable {name : String} {ledger : Ledger} {entry : Entry}

/-- The latest declaration fixes the type. -/
theorem typeOf?_declared (type : VarType) (stored : Content) :
    typeOf? name (.declared name type stored :: ledger) = some type := by
  simp [typeOf?, Entry.typeOf?]

theorem last?_cons_self (about : entry.name = name) :
    last? name (entry :: ledger) = some entry := by
  simp [last?, about]

/-- An entry about another name tells nothing new. -/
theorem binding?_cons_of_ne (different : entry.name ≠ name) :
    binding? name (entry :: ledger) = binding? name ledger := by
  have elsewhere : (entry.name == name) = false := by simpa using different
  simp only [binding?, typeOf?, last?, List.findSome?_cons, Entry.typeOf?_of_ne different,
    List.find?_cons, elsewhere]

/-- A name without a type has never been declared. -/
theorem typeOf?_eq_none_iff : typeOf? name ledger = none ↔ ¬ Declares name ledger := by
  constructor
  · rintro none ⟨type, stored, member⟩
    have silent := List.findSome?_eq_none_iff.mp none _ member
    rw [Entry.typeOf?_eq_some_iff.mpr ⟨stored, rfl⟩] at silent
    cases silent
  · intro absent
    refine List.findSome?_eq_none_iff.mpr fun entry member => ?_
    cases found : entry.typeOf? name with
    | none => rfl
    | some type =>
      obtain ⟨stored, rfl⟩ := Entry.typeOf?_eq_some_iff.mp found
      exact absurd ⟨type, stored, member⟩ absent

theorem binding?_eq_none_iff : binding? name ledger = none ↔ ¬ Declares name ledger := by
  rw [binding?, Option.map_eq_none_iff, typeOf?_eq_none_iff]

end Ledger

/-! ### One operation -/

/-- The scope binds the names that its ledger declares, and holds what the ledger says. -/
def Scope.Follows (ledger : Ledger) (scope : Scope) : Prop :=
  ∀ name, scope.find? name = Ledger.binding? name ledger

namespace Scope.Follows

variable {scope : Scope} {ledger : Ledger} {name : String} {type : VarType}

/-- A scope without variables follows from nothing having happened. -/
theorem empty : Scope.empty.Follows [] :=
  fun _ => rfl

/-- A new entry about a name tells of the variable that is bound anew. -/
theorem bind (follows : scope.Follows ledger) (entry : Entry) (about : entry.name = name)
    (typed : Ledger.typeOf? name (entry :: ledger) = some type) :
    (scope.bind name ⟨type, entry.stored⟩).Follows (entry :: ledger) := by
  intro other
  by_cases same : other = name
  · rw [same, find?_bind_self, Ledger.binding?, typed, Ledger.last?_cons_self about]
    rfl
  · rw [find?_bind_of_ne same, follows other, Ledger.binding?_cons_of_ne]
    rw [about]
    exact Ne.symm same

theorem declared (follows : scope.Follows ledger) (name : String) (type : VarType)
    (stored : Content) :
    (scope.bind name ⟨type, stored⟩).Follows (.declared name type stored :: ledger) :=
  follows.bind (.declared name type stored) rfl (Ledger.typeOf?_declared type stored)

theorem assigned (follows : scope.Follows ledger)
    (typed : Ledger.typeOf? name ledger = some type) (stored : Value) :
    (scope.bind name ⟨type, some stored⟩).Follows (.assigned name stored :: ledger) :=
  follows.bind (.assigned name stored) rfl typed

end Scope.Follows

/-- Each scope follows a ledger, in order. -/
abbrev FollowEach : List Ledger → List Scope → Prop :=
  List.Forall₂ fun ledger scope => scope.Follows ledger

namespace FollowEach

variable {ledgers : List Ledger} {scopes : List Scope} {name : String}

/-- A name means what the innermost ledger says that declares it. -/
theorem findIn (follow : FollowEach ledgers scopes) :
    Scopes.findIn name scopes = ledgers.findSome? (Ledger.binding? name) := by
  induction follow with
  | nil => rfl
  | @cons ledger scope _ _ follows _ inductionHypothesis =>
    rw [Scopes.findIn, List.findSome?_cons, follows name, inductionHypothesis]
    cases Ledger.binding? name ledger with
    | none => rfl
    | some binding => rfl

end FollowEach

namespace Ledger

variable {name : String} {ledger : Ledger} {ledgers : List Ledger} {entry : Entry}

/-- The last entry about a name is the one behind which no other is about it. -/
theorem last?_eq_some_iff :
    last? name ledger = some entry ↔ entry.name = name ∧
      ∃ newer older, ledger = newer ++ entry :: older ∧ ∀ later ∈ newer, later.name ≠ name := by
  simp [last?, List.find?_eq_some_iff_append]

/-- A name that is declared in a scope has a last entry there. -/
theorem exists_last? {binding : Binding} (bound : binding? name ledger = some binding) :
    ∃ entry, last? name ledger = some entry ∧ entry.stored = binding.value := by
  obtain ⟨type, typed, rfl⟩ := Option.map_eq_some_iff.mp bound
  obtain ⟨entry, member, declared⟩ := List.exists_of_findSome?_eq_some typed
  obtain ⟨stored, rfl⟩ := Entry.typeOf?_eq_some_iff.mp declared
  have listed : (last? name ledger).isSome :=
    List.find?_isSome.mpr ⟨_, member, by simp [Entry.name]⟩
  obtain ⟨last, found⟩ := Option.isSome_iff_exists.mp listed
  exact ⟨last, found, by simp [found]⟩

theorem Last.binding (last : Last name ledgers entry) :
    ∃ type, ledgers.findSome? (binding? name) = some ⟨type, entry.stored⟩ := by
  obtain ⟨inner, newer, older, outer, rfl, silent, declares, about, latest⟩ := last
  have found : last? name (newer ++ entry :: older) = some entry :=
    last?_eq_some_iff.mpr ⟨about, newer, older, rfl, latest⟩
  cases typed : typeOf? name (newer ++ entry :: older) with
  | none => exact absurd declares (typeOf?_eq_none_iff.mp typed)
  | some type =>
    have bound : binding? name (newer ++ entry :: older) = some ⟨type, entry.stored⟩ := by
      rw [binding?, typed, found]
      rfl
    have skipped : inner.findSome? (binding? name) = none :=
      List.findSome?_eq_none_iff.mpr fun ledger member =>
        binding?_eq_none_iff.mpr (silent ledger member)
    exact ⟨type, by rw [List.findSome?_append, skipped, List.findSome?_cons, bound]; rfl⟩

/-- What a variable holds was last stored by some entry. -/
theorem exists_last {binding : Binding}
    (found : ledgers.findSome? (binding? name) = some binding) :
    ∃ entry, Last name ledgers entry ∧ entry.stored = binding.value := by
  obtain ⟨inner, ledger, outer, rfl, bound, silent⟩ := List.findSome?_eq_some_iff.mp found
  obtain ⟨entry, last, stored⟩ := exists_last? bound
  obtain ⟨about, newer, older, rfl, latest⟩ := last?_eq_some_iff.mp last
  refine ⟨entry, ⟨inner, newer, older, outer, rfl, ?_, ?_, about, latest⟩, stored⟩
  · exact fun ledger member => binding?_eq_none_iff.mp (silent ledger member)
  · by_contra undeclared
    rw [binding?_eq_none_iff.mpr undeclared] at bound
    cases bound

end Ledger

namespace Scopes

variable {scopes : Scopes} {name : Token}

theorem read_eq (scopes : Scopes) (name : Token) :
    scopes.read name =
      match scopes.find? name.lexeme with
      | some ⟨_, some value⟩ => .ok value
      | some ⟨_, none⟩ => .error ⟨.uninitializedVariable name.lexeme, some name⟩
      | none => .error ⟨.undefinedVariable name.lexeme, some name⟩ := by
  unfold read lookup
  cases scopes.find? name.lexeme with
  | none => rfl
  | some binding =>
    obtain ⟨type, content⟩ := binding
    cases content with
    | none => rfl
    | some value => rfl

theorem read_eq_ok_iff {value : Value} :
    scopes.read name = .ok value ↔
      ∃ type, scopes.find? name.lexeme = some ⟨type, some value⟩ := by
  rw [read_eq]
  split <;> simp_all

/-- A name is undefined just when no scope binds it. -/
theorem read_undefined_iff :
    scopes.read name = .error ⟨.undefinedVariable name.lexeme, some name⟩ ↔
      scopes.find? name.lexeme = none := by
  rw [read_eq]
  split <;> simp_all

/-- It is uninitialized just when it is bound to no value. -/
theorem read_uninitialized_iff :
    scopes.read name = .error ⟨.uninitializedVariable name.lexeme, some name⟩ ↔
      ∃ type, scopes.find? name.lexeme = some ⟨type, none⟩ := by
  rw [read_eq]
  split <;> simp_all

end Scopes

/-- What reading a name gives, told from ledgers: the value that was stored last in the innermost
scope that declares the name, or one of two errors. -/
structure Ledger.Answers (ledgers : List Ledger) (name : Token)
    (answer : Except RuntimeError Value) : Prop where
  value : ∀ value, answer = .ok value ↔
    ∃ entry, Last name.lexeme ledgers entry ∧ entry.stored = some value
  /-- No scope declares the name. -/
  undefined : answer = .error ⟨.undefinedVariable name.lexeme, some name⟩ ↔
    ∀ ledger ∈ ledgers, ¬ Declares name.lexeme ledger
  /-- The innermost scope that declares the name declared it without a value, and stored nothing in
  it since. -/
  uninitialized : answer = .error ⟨.uninitializedVariable name.lexeme, some name⟩ ↔
    ∃ type, Last name.lexeme ledgers (.declared name.lexeme type none)

/-- An entry without a value is a declaration. -/
theorem Entry.eq_declared {entry : Entry} (missing : entry.stored = none) :
    ∃ type, entry = .declared entry.name type none := by
  cases entry with
  | declared name type stored =>
    cases missing
    exact ⟨type, rfl⟩
  | assigned name stored => cases missing

theorem FollowEach.answers {ledgers : List Ledger} {scopes : Scopes}
    (follow : FollowEach ledgers scopes.toList) (name : Token) :
    Ledger.Answers ledgers name (scopes.read name) := by
  have found : scopes.find? name.lexeme = ledgers.findSome? (Ledger.binding? name.lexeme) :=
    follow.findIn
  constructor
  · intro value
    rw [Scopes.read_eq_ok_iff, found]
    constructor
    · rintro ⟨type, told⟩
      exact Ledger.exists_last told
    · rintro ⟨entry, last, stored⟩
      rw [← stored]
      exact last.binding
  · rw [Scopes.read_undefined_iff, found, List.findSome?_eq_none_iff]
    simp only [Ledger.binding?_eq_none_iff]
  · rw [Scopes.read_uninitialized_iff, found]
    constructor
    · rintro ⟨type, told⟩
      obtain ⟨entry, last, missing⟩ := Ledger.exists_last told
      obtain ⟨declared, same⟩ := Entry.eq_declared missing
      obtain ⟨_, _, _, _, _, _, _, about, _⟩ := id last
      rw [about] at same
      exact ⟨declared, same ▸ last⟩
    · rintro ⟨type, last⟩
      exact last.binding

/-! ### Assigning and declaring -/

/-- The variable that a name means is bound anew in the innermost scope that binds it. -/
theorem Scopes.exists_of_findIn {list : List Scope} {name : String} {binding : Binding}
    (found : findIn name list = some binding) (new : Binding) :
    ∃ inner scope outer, list = inner ++ scope :: outer ∧
      rebindIn name new list = inner ++ scope.bind name new :: outer ∧
      (∀ nearer ∈ inner, nearer.find? name = none) ∧ scope.find? name = some binding := by
  induction list with
  | nil => cases found
  | cons first rest inductionHypothesis =>
    unfold findIn at found
    unfold rebindIn
    cases bound : first.find? name with
    | some old =>
      rw [bound] at found
      exact ⟨[], first, rest, rfl, rfl, List.forall_mem_nil _, bound.trans found⟩
    | none =>
      rw [bound] at found
      obtain ⟨inner, scope, outer, rfl, rebound, absent, here⟩ := inductionHypothesis found
      refine ⟨first :: inner, scope, outer, rfl, congrArg _ rebound, ?_, here⟩
      exact List.forall_mem_cons.mpr ⟨bound, absent⟩

/-- An assignment binds one variable anew: the innermost one of the name. -/
theorem Scopes.exists_of_assign {before after : Scopes} {name : Token} {given : Content}
    {stored : Value} (assigned : before.assign name given = .ok (stored, after)) :
    ∃ inner scope outer binding, before.toList = inner ++ scope :: outer ∧
      after.toList = inner ++ scope.bind name.lexeme ⟨binding.type, some stored⟩ :: outer ∧
      (∀ nearer ∈ inner, nearer.find? name.lexeme = none) ∧
      scope.find? name.lexeme = some binding ∧ binding.type.accept given = .ok stored := by
  obtain ⟨binding, found, accepted, rfl⟩ := assign_eq_ok_iff.mp assigned
  obtain ⟨inner, scope, outer, whole, rebound, absent, here⟩ :=
    exists_of_findIn found ⟨binding.type, some stored⟩
  exact ⟨inner, scope, outer, binding, whole, (toList_rebind _ _ _).trans rebound, absent, here,
    accepted⟩

namespace Operation

variable {machine reached : Machine}

end Operation

end LineScript
