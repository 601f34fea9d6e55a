/-
Module: LineScript.Proofs.ParserRecursion
Purpose: Every recursion of the parsers goes further through the tokens, so none ends at its bound.
Trusted boundary: none
Main exports: RecursesForward, LoopsForward, Bounded, RecursesForward.of_bounded, Expr.parse_eq
-/
import LineScript.Proofs.ParserSteps

/-!
The parsers are defined with a bound on their recursion, the number of tokens left. The bound says
nothing about the language: with it or without it, a parser calls itself only behind a token that it
has passed. `RecursesForward` states this without any bound. One step of the recursion, with any
parser in place of the recursive call, gives what the parser itself gives, as long as both agree at
all places further on. So the equation of the recursion has one solution
(`RecursesForward.unique`), and it is found after at most as many calls as there are tokens left.

The proofs compare two runs of a step, over two parsers that are alike further on. `Alike` is about
the place where the step starts, `AlikeFrom` about all places that it leads to.
-/

namespace LineScript

open Progress

namespace Parse

variable {ι α β : Type}

/-! ### Recursion that goes further -/

/-- The parsers agree at all places further on. -/
def AgreeBehind (start : Progress) (first second : Parse α) : Prop :=
  ∀ later, start.Further later → first later = second later

/-- The parser goes by steps. It is the step of its recursion with itself as the recursive call,
which is used at places further on only: any other parser that agrees with it there does as well. -/
structure RecursesForward (step : Parse α → Parse α) (parser : Parse α) : Prop where
  goes : Goes parser
  forward : ∀ start, EndsOnce start.cursor.kinds → ∀ nested, AgreeBehind start nested parser →
    step nested start = parser start

/-- So it is with a loop that carries something from turn to turn. -/
structure LoopsForward (step : (ι → Parse α) → ι → Parse α) (loop : ι → Parse α) : Prop where
  goes : ∀ carried, Goes (loop carried)
  forward : ∀ start, EndsOnce start.cursor.kinds → ∀ nested : ι → Parse α,
    (∀ carried, AgreeBehind start (nested carried) (loop carried)) →
    ∀ carried, step nested carried start = loop carried start

theorem RecursesForward.unfold {step : Parse α → Parse α} {parser : Parse α}
    (recurses : RecursesForward step parser) {start : Progress}
    (ended : EndsOnce start.cursor.kinds) : parser start = step parser start :=
  (recurses.forward start ended parser fun _ _ => rfl).symm

/-- No other parser solves the equation of the recursion. -/
theorem RecursesForward.unique {step : Parse α → Parse α} {parser other : Parse α}
    (recurses : RecursesForward step parser)
    (solves : ∀ start, EndsOnce start.cursor.kinds → other start = step other start)
    {start : Progress} (ended : EndsOnce start.cursor.kinds) : other start = parser start := by
  -- By induction on the tokens left: the step only calls for the parsers further on.
  induction left : start.cursor.remaining using Nat.strong_induction_on generalizing start with
  | _ left inductionHypothesis =>
    rw [solves start ended]
    apply recurses.forward start ended
    intro later further
    have fewer := left ▸ further.remaining_lt
    exact inductionHypothesis _ fewer (further.steps.endsOnce ended) rfl

/-! ### Parsers that are alike -/

/-- From the start, two parsers end alike; where something is found, the condition holds. -/
structure Alike (start : Progress) (found : Progress → Prop) (first second : Parse α) : Prop where
  same : first start = second start
  ends : Ends found start.Steps (second start)

/-- From all places that the origin leads to, two parsers end alike. -/
def AlikeFrom (origin : Progress) (first second : Parse α) : Prop :=
  ∀ start, origin.Steps start → EndsOnce start.cursor.kinds →
    Alike start start.Steps first second

/-- So they do from all places further on. -/
def AlikeBehind (start : Progress) (first second : Parse α) : Prop :=
  ∀ later, start.Further later → AlikeFrom later first second

section Rules

variable {start origin : Progress} {first second : Parse α} {next following : α → Parse β}

theorem Goes.alike (goes : Goes first) : AlikeFrom origin first first :=
  fun start _ ended => ⟨rfl, goes start ended⟩

theorem Goes.of_alike (alike : ∀ origin, AlikeFrom origin first first) : Goes first :=
  fun start ended => (alike start start .refl ended).ends

theorem Strides.of_alike
    (alike : ∀ start, EndsOnce start.cursor.kinds → Alike start start.Further first first) :
    Strides first :=
  fun start ended => (alike start ended).ends

theorem AlikeFrom.onward {later : Progress} (alike : AlikeFrom origin first second)
    (steps : origin.Steps later) : AlikeFrom later first second :=
  fun start more => alike start (steps.trans more)

theorem AlikeFrom.behind (alike : AlikeFrom origin first second) :
    AlikeBehind origin first second :=
  fun _ further => alike.onward further.steps

theorem AlikeBehind.onward {later : Progress} (alike : AlikeBehind start first second)
    (steps : start.Steps later) : AlikeBehind later first second :=
  fun last further => alike last (steps.trans_further further)

theorem Alike.pure (value : α) :
    Alike start start.Steps (Pure.pure value : Parse α) (Pure.pure value) :=
  ⟨rfl, .refl⟩

theorem Alike.fail (message : String) {found : Progress → Prop} :
    Alike start found (Parse.fail message : Parse α) (Parse.fail message) :=
  ⟨rfl, .single (.report _)⟩

theorem Alike.weaken {found other : Progress → Prop} (alike : Alike start found first second)
    (finds : ∀ reached, found reached → other reached) : Alike start other first second :=
  ⟨alike.same, alike.ends.weaken finds fun _ => id⟩

/-- Two sequences of parsers, of which the second parts are alike where the first ones end. -/
theorem Alike.bind {found final : Progress → Prop} (begins : Alike start found first second)
    (steps : ∀ reached, found reached → start.Steps reached)
    (onward : ∀ middle reached, found middle → middle.Steps reached → final reached)
    (continues : ∀ value middle, found middle →
      Alike middle middle.Steps (next value) (following value)) :
    Alike start final (first >>= next) (second >>= following) := by
  obtain ⟨same, ends⟩ := begins
  rw [← same] at ends
  constructor
  · rw [Action.bind_apply, Action.bind_apply, ← same]
    cases ending : first start with
    | ok value middle =>
      rw [ending] at ends
      exact (continues value middle ends).same
    | error error middle => rfl
  · rw [same] at ends
    apply ends.bind
    intro value middle holds
    exact (continues value middle holds).ends.weaken (fun _ => onward middle _ holds) fun _ =>
      (steps middle holds).trans

/-- Both parsers look at the same token. -/
theorem Alike.looking {found : Progress → Prop} {next following : Token → Parse β}
    (alike : Alike start found (next start.cursor.current) (following start.cursor.current)) :
    Alike start found (current >>= next) (current >>= following) :=
  ⟨alike.same, alike.ends⟩

theorem AlikeFrom.bind (begins : AlikeFrom origin first second)
    (continues : ∀ value, AlikeFrom origin (next value) (following value)) :
    AlikeFrom origin (first >>= next) (second >>= following) := by
  intro start leads ended
  apply (begins start leads ended).bind (fun _ => id) fun _ _ => Relation.ReflTransGen.trans
  intro value middle steps
  exact continues value middle (leads.trans steps) (steps.endsOnce ended)

/-- The first parser is the same on both sides. -/
theorem Goes.then_alike (goes : Goes first)
    (continues : ∀ value, AlikeFrom origin (next value) (following value)) :
    AlikeFrom origin (first >>= next) (first >>= following) :=
  goes.alike.bind continues

/-- It passes a token, so what follows stands further on. -/
theorem Strides.then_alike (strides : Strides first) (ended : EndsOnce start.cursor.kinds)
    (continues : ∀ value, AlikeBehind start (next value) (following value)) :
    Alike start start.Further (first >>= next) (first >>= following) := by
  have begins : Alike start start.Further first first := ⟨rfl, strides start ended⟩
  apply begins.bind (fun _ => Further.steps) fun _ _ => Further.trans_steps
  intro value middle further
  exact continues value middle further middle .refl (further.steps.endsOnce ended)

/-- A token that does not end the text is passed. -/
theorem advance_then_alike {next following : Token → Parse β}
    (inside : start.cursor.current.kind ≠ .eof) (ended : EndsOnce start.cursor.kinds)
    (continues : ∀ token, AlikeBehind start (next token) (following token)) :
    Alike start start.Further (advance >>= next) (advance >>= following) := by
  have begins : Alike start start.Further advance advance := ⟨rfl, further_advance ended inside⟩
  apply begins.bind (fun _ => Further.steps) fun _ _ => Further.trans_steps
  intro value middle further
  exact continues value middle further middle .refl (further.steps.endsOnce ended)

/-- A token that is accepted is passed, so what follows stands further on; otherwise nothing is
passed. -/
theorem accept_alike {kinds : List TokenKind} {next following : Option Token → Parse β}
    (inside : .eof ∉ kinds) (ended : EndsOnce start.cursor.kinds)
    (refused : Alike start start.Steps (next none) (following none))
    (taken : ∀ token, AlikeBehind start (next (some token)) (following (some token))) :
    Alike start start.Steps (accept kinds >>= next) (accept kinds >>= following) := by
  have accepts : Walks (accept kinds) _ fun _ _ _ => False := accept_walks inside
  have walks := accepts start (Cursor.closed_of_endsOnce ended)
  unfold WalksFrom at walks
  cases ending : accept kinds start with
  | error error middle =>
    rw [ending] at walks
    obtain ⟨_, _, _, none⟩ := walks
    exact none.elim
  | ok found middle =>
    rw [ending] at walks
    obtain ⟨passed, reported, walk, rfl, shape⟩ := walks
    have steps := walk.steps ended
    have continues : Alike middle middle.Steps (next found) (following found) := by
      cases found with
      | none =>
        subst shape
        exact walk.eq_of_nil ▸ refused
      | some token =>
        obtain ⟨_, rfl⟩ := shape
        have further := walk.further ended (List.cons_ne_nil _ _)
        exact taken token middle further middle .refl (steps.endsOnce ended)
    constructor
    · rw [Action.bind_of_ok ending, Action.bind_of_ok ending]
      exact continues.same
    · rw [Action.bind_of_ok ending]
      exact continues.ends.weaken (fun _ => steps.trans) fun _ => steps.trans

end Rules

/-! ### Bounds that are never reached -/

/-- A loop whose bound counts its calls. As long as the bound is not below the number of tokens
left, one more call is a step, and the step calls the loop further on only. -/
structure Bounded (step : (ι → Parse α) → ι → Parse α) (bounded : Nat → ι → Parse α) : Prop where
  goes : ∀ bound carried, Goes (bounded bound carried)
  unfolds : ∀ bound carried start, EndsOnce start.cursor.kinds →
    start.cursor.remaining ≤ bound + 1 →
    bounded (bound + 1) carried start = step (bounded bound) carried start
  guarded : ∀ start nested loop, EndsOnce start.cursor.kinds →
    (∀ carried, AlikeBehind start (nested carried) (loop carried)) →
    ∀ carried, step nested carried start = step loop carried start

section Bounds

variable {bounded : Nat → ι → Parse α} {step : (ι → Parse α) → ι → Parse α}

/-- With at least as many calls as there are tokens left, the bound does not matter. -/
theorem Bounded.eq_of_remaining_le (bounds : Bounded step bounded) {start : Progress}
    (ended : EndsOnce start.cursor.kinds) {bound : Nat}
    (enough : start.cursor.remaining ≤ bound) (carried : ι) :
    bounded bound carried start = bounded start.cursor.remaining carried start := by
  -- By induction on the tokens left: both bounds leave one step less than before, and the steps
  -- call for the loop further on, where the smaller bounds are still enough.
  induction count : start.cursor.remaining using Nat.strong_induction_on
    generalizing start bound carried with
  | _ left inductionHypothesis =>
    obtain ⟨fewer, rfl⟩ : ∃ fewer, left = fewer + 1 := ⟨_, count.symm⟩
    obtain ⟨bound, rfl⟩ : ∃ less, bound = less + 1 := ⟨bound - 1, by omega⟩
    rw [bounds.unfolds bound carried start ended enough,
      bounds.unfolds fewer carried start ended count.le]
    apply bounds.guarded start _ _ ended
    intro carried later further last steps still
    have fits := (further.trans_steps steps).remaining_lt
    rw [count] at fits enough
    refine ⟨?_, bounds.goes fewer carried last still⟩
    have one : last.cursor.remaining ≤ bound := by omega
    have two : last.cursor.remaining ≤ fewer := by omega
    rw [inductionHypothesis _ fits still one carried rfl,
      inductionHypothesis _ fits still two carried rfl]

/-- A loop that is bounded by the tokens left goes further with every call. -/
theorem Bounded.loopsForward (bounds : Bounded step bounded) :
    LoopsForward step fun carried => do bounded (← remaining) carried where
  goes := fun carried => remaining_goes.bind fun bound => bounds.goes bound carried
  forward := by
    intro start ended nested agree carried
    show _ = bounded (start.cursor.after.length + 1) carried start
    rw [bounds.unfolds _ carried start ended (Nat.le_refl _)]
    apply bounds.guarded start _ _ ended
    intro carried later further last steps still
    have behind := further.trans_steps steps
    refine ⟨?_, bounds.goes _ carried last still⟩
    have fits : last.cursor.remaining ≤ start.cursor.after.length :=
      Nat.le_of_lt_succ behind.remaining_lt
    rw [agree carried last behind, bounds.eq_of_remaining_le still fits]
    rfl

/-- Elsewhere than at its bound, the loop is the one without a bound. -/
theorem Bounded.alikeFrom (bounds : Bounded step bounded) {start : Progress} {bound : Nat}
    (enough : start.cursor.remaining ≤ bound) (carried : ι) :
    AlikeFrom start (bounded bound carried) (do bounded (← remaining) carried) := by
  intro last steps ended
  have fits := Nat.le_trans steps.remaining_le enough
  exact ⟨bounds.eq_of_remaining_le ended fits carried, bounds.goes _ carried last ended⟩

theorem Bounded.alikeBehind (bounds : Bounded step bounded) {start : Progress} {bound : Nat}
    (enough : start.cursor.remaining ≤ bound + 1) (carried : ι) :
    AlikeBehind start (bounded bound carried) (do bounded (← remaining) carried) :=
  fun _ further => bounds.alikeFrom
    (Nat.le_of_lt_succ (Nat.lt_of_lt_of_le further.remaining_lt enough)) carried

end Bounds

/-- So does a parser whose bound counts its calls. -/
theorem RecursesForward.of_bounded {step : Parse α → Parse α} {bounded : Nat → Parse α}
    (bounds : Bounded (fun nested (_ : Unit) => step (nested ())) fun bound _ => bounded bound) :
    RecursesForward step (do bounded (← remaining)) where
  goes := bounds.loopsForward.goes ()
  forward := fun start ended nested agree =>
    bounds.loopsForward.forward start ended (fun _ => nested) (fun _ => agree) ()

/-- Only what a parser does in front of a text that ends matters. -/
theorem RecursesForward.congr {step : Parse α → Parse α} {parser other : Parse α}
    (recurses : RecursesForward step parser)
    (same : ∀ start, EndsOnce start.cursor.kinds → other start = parser start) :
    RecursesForward step other where
  goes := by
    intro start ended
    rw [same start ended]
    exact recurses.goes start ended
  forward := by
    intro start ended nested agree
    rw [same start ended]
    apply recurses.forward start ended
    intro later further
    rw [agree later further, same later (further.steps.endsOnce ended)]

/-! ### Passing tokens of a sort, and recovery -/

/-- The current token, if it is of the sort. -/
def passStep (sort : TokenKind → Bool) (again : Parse Unit) : Parse Unit := do
  if sort (← current).kind then
    let _ ← advance
    again
  else
    return ()

/-- All tokens of the sort that follow each other. -/
def passAll (sort : TokenKind → Bool) : Parse Unit :=
  move fun cursor => Cursor.passWhile sort cursor.before cursor.current cursor.after

/-- The current token, unless parsing can resume at it. -/
def resumeStep (again : Token → Parse Unit) (previous : Token) : Parse Unit := do
  let token ← current
  if token.kind = .eof ∨ previous.kind = .newline ∨ Cursor.isResumption token.kind = true then
    return ()
  else
    again (← advance)

/-- All tokens up to one at which parsing can resume. -/
def resume (previous : Token) : Parse Unit :=
  move fun cursor =>
    Cursor.passUntilResumption previous cursor.before cursor.current cursor.after

/-- In front of a token that does not end the text, there is another one behind it. -/
theorem exists_advance {start : Progress} (ended : EndsOnce start.cursor.kinds)
    (inside : start.cursor.current.kind ≠ .eof) :
    ∃ next rest, start.cursor.after = next :: rest ∧
      start.cursor.advance = ⟨start.cursor.current :: start.cursor.before, next, rest⟩ := by
  obtain ⟨⟨before, current, after⟩, errors⟩ := start
  obtain ⟨next, rest, rfl⟩ := List.exists_cons_of_ne_nil
    ((Cursor.closed_of_endsOnce ended).after_ne_nil inside)
  exact ⟨next, rest, rfl, if_neg inside⟩

/-- No token of the sort ends the text, so the tokens end with one of another sort. -/
theorem passAll_recursesForward {sort : TokenKind → Bool} (stops : sort .eof = false) :
    RecursesForward (passStep sort) (passAll sort) where
  goes := move_goes fun cursor => Cursor.exists_moved_passWhile sort _ _ _
  forward := by
    intro start ended nested agree
    cases listed : sort start.cursor.current.kind with
    | true =>
      have inside : start.cursor.current.kind ≠ .eof := by
        intro last
        rw [last, stops] at listed
        cases listed
      obtain ⟨next, rest, after, advanced⟩ := exists_advance ended inside
      have behind := agree _ (further_advance ended inside)
      have passes : passStep sort nested start =
          nested { start with cursor := start.cursor.advance } := by
        simp [passStep, Action.bind_apply, current, advance, listed]
      rw [passes, behind, advanced]
      simp [passAll, move, after, Cursor.passWhile, listed]
    | false =>
      have stays : passStep sort nested start = .ok () start := by
        simp [passStep, Action.bind_apply, current, listed]
      rw [stays, passAll, move]
      obtain ⟨⟨before, current, after⟩, errors⟩ := start
      cases after with
      | nil => rfl
      | cons next rest => simp [Cursor.passWhile, show sort current.kind = false from listed]

/-- Recovery ends at the end of the text if it ends nowhere before. -/
theorem resume_loopsForward : LoopsForward resumeStep resume where
  goes := fun previous => move_goes fun cursor =>
    Cursor.exists_moved_passUntilResumption previous _ _ _
  forward := by
    intro start ended nested agree previous
    by_cases resumes : start.cursor.current.kind = .eof ∨ previous.kind = .newline ∨
        Cursor.isResumption start.cursor.current.kind = true
    · have stays : resumeStep nested previous start = .ok () start := by
        simp [resumeStep, Action.bind_apply, current, resumes]
      rw [stays, resume, move]
      obtain ⟨⟨before, current, after⟩, errors⟩ := start
      cases after with
      | nil => rfl
      | cons next rest =>
        dsimp only at resumes ⊢
        rw [Cursor.passUntilResumption, if_pos resumes]
    · have inside : start.cursor.current.kind ≠ .eof := fun last => resumes (.inl last)
      obtain ⟨next, rest, after, advanced⟩ := exists_advance ended inside
      have behind := agree start.cursor.current _ (further_advance ended inside)
      have passes : resumeStep nested previous start =
          nested start.cursor.current { start with cursor := start.cursor.advance } := by
        simp [resumeStep, Action.bind_apply, current, advance, resumes]
      rw [passes, behind, advanced]
      simp only [resume, move, after, Cursor.passUntilResumption, if_neg resumes]

/-- Passing a line passes what is in front of its newline, and the newline if there is one. -/
theorem skipLine_eq : skipLine = (do
    passAll fun kind => kind != .newline && kind != .eof
    let _ ← accept [.newline]) := by
  funext start
  have stops : passAll (fun kind => kind != .newline && kind != .eof) start =
      .ok () { start with cursor := start.cursor.lineEnd } := rfl
  rw [Action.bind_of_ok stops, skipLine, move, Cursor.skipLine_eq]
  by_cases newline : start.cursor.lineEnd.current.kind = .newline
  · simp [accept, Action.bind_apply, check, newline]
    rfl
  · simp [accept, Action.bind_apply, check, newline]

/-- Recovery passes the current token in any case. -/
theorem synchronize_eq : synchronize = (do resume (← advance)) :=
  rfl

end Parse

/-! ### Expressions -/

namespace Expr

open Parse

/-- One operator of a chain with its right operand. -/
def chainStep (operators : List TokenKind) (node : Expr → Token → Expr → Expr)
    (operand : Parse Expr) (again : Expr → Parse Expr) (left : Expr) : Parse Expr := do
  match ← accept operators with
  | some operator =>
    let right ← operand
    again (node left operator right)
  | none => return left

/-- The rest of a chain, as long as the tokens left allow. -/
def chainRest (operators : List TokenKind) (node : Expr → Token → Expr → Expr)
    (operand : Parse Expr) (left : Expr) : Parse Expr := do
  chainFrom operators node operand (← remaining) left

/-- One target of an assignment, and what is assigned to it. -/
def assignmentStep (factor again : Parse Expr) : Parse Expr := do
  let target ← disjunction factor
  match ← accept [.equal] with
  | none => return target
  | some equals =>
    let value ← again
    match target with
    | .reference name => return .assign name value
    | _ =>
      report equals "Invalid assignment target"
      return target

/-- An assignment as long as the tokens left allow. -/
def assignmentOver (factor : Parse Expr) : Parse Expr := do
  assignment factor (← remaining)

/-- A prefix operator with its operand, or a primary expression with what stands in its
parentheses. -/
def factorOver (inner operand : Parse Expr) : Parse Expr := do
  let token ← current
  match token.kind with
  | .notWord | .minus | .plus =>
    let _ ← advance
    let operand ← operand
    return .unary token operand
  | .integerLiteral | .floatLiteral | .stringLiteral | .charLiteral | .trueWord | .falseWord =>
    let _ ← advance
    return .literal (token.literal.getD .null)
  | .nullWord =>
    let _ ← advance
    return .literal .null
  | .dollar =>
    let _ ← advance
    return .literal (.text "\n")
  | .identifier =>
    let _ ← advance
    return .reference token
  | .leftParen =>
    let _ ← advance
    let inner ← inner
    let _ ← expect .rightParen "Expected ')' after expression"
    return .group inner
  | _ => fail "Expected expression"

/-- A factor with factors of the same sort in it. -/
def factorStep (again : Parse Expr) : Parse Expr :=
  factorOver (assignmentOver again) again

/-- A factor as deep as the tokens left allow. -/
def anyFactor : Parse Expr := do
  factor (← remaining)

section Chains

variable {operators : List TokenKind} {node : Expr → Token → Expr → Expr}
  {operand other : Parse Expr} {origin : Progress}

theorem chainFrom_goes (goes : Goes operand) (bound : Nat) (left : Expr) :
    Goes (chainFrom operators node operand bound left) := by
  induction bound generalizing left with
  | zero => exact .pure left
  | succ bound inductionHypothesis =>
    apply (accept_goes operators).bind
    intro found
    cases found with
    | none => exact .pure left
    | some operator => exact goes.bind fun right => inductionHypothesis _

/-- A chain goes on behind an operator. -/
theorem chainRest_loopsForward (inside : .eof ∉ operators) (goes : Goes operand) :
    LoopsForward (chainStep operators node operand) (chainRest operators node operand) := by
  have bounds : Bounded (chainStep operators node operand) (chainFrom operators node operand) := by
    refine ⟨chainFrom_goes goes, fun _ _ _ _ _ => rfl, ?_⟩
    intro start nested loop ended alike left
    refine (accept_alike inside ended (.pure left) fun operator => ?_).same
    intro later further
    exact goes.then_alike fun right => alike _ later further
  exact bounds.loopsForward

theorem chainFrom_alike (operands : AlikeFrom origin operand other) (bound : Nat) (left : Expr) :
    AlikeFrom origin (chainFrom operators node operand bound left)
      (chainFrom operators node other bound left) := by
  induction bound generalizing left with
  | zero => exact (Goes.pure left).alike
  | succ bound inductionHypothesis =>
    apply (accept_goes operators).then_alike
    intro found
    cases found with
    | none => exact (Goes.pure left).alike
    | some operator => exact operands.bind fun right => inductionHypothesis _

theorem chain_alike (operands : AlikeFrom origin operand other) :
    AlikeFrom origin (chain operators node operand) (chain operators node other) := by
  apply operands.bind
  intro first
  apply remaining_goes.then_alike
  intro bound
  exact chainFrom_alike operands bound first

end Chains

section Factors

variable {factors others : Parse Expr} {origin : Progress}
  (alike : AlikeFrom origin factors others)

include alike

theorem disjunction_alike : AlikeFrom origin (disjunction factors) (disjunction others) := by
  have products : AlikeFrom origin (product factors) (product others) := chain_alike alike
  have sums : AlikeFrom origin (sum factors) (sum others) := chain_alike products
  have comparisons : AlikeFrom origin (comparison factors) (comparison others) := chain_alike sums
  have equalities : AlikeFrom origin (equality factors) (equality others) :=
    chain_alike comparisons
  have conjunctions : AlikeFrom origin (conjunction factors) (conjunction others) :=
    chain_alike equalities
  exact chain_alike conjunctions

theorem assignment_alike (bound : Nat) :
    AlikeFrom origin (assignment factors bound) (assignment others bound) := by
  induction bound with
  | zero => exact disjunction_alike alike
  | succ bound inductionHypothesis =>
    apply (disjunction_alike alike).bind
    intro target
    apply (accept_goes [.equal]).then_alike
    intro found
    cases found with
    | none => exact (Goes.pure target).alike
    | some equals =>
      apply inductionHypothesis.bind
      intro value
      cases target with
      | reference name => exact (Goes.pure _).alike
      | _ => exact (report_goes equals _).then_alike fun _ => (Goes.pure _).alike

theorem assignmentOver_alike : AlikeFrom origin (assignmentOver factors) (assignmentOver others) :=
  remaining_goes.then_alike fun bound => assignment_alike alike bound

end Factors

/-- An assignment goes on behind the sign that follows its target. -/
theorem assignment_bounded {factor : Parse Expr} (blames : BlamesOnce factor) :
    Bounded (fun nested (_ : Unit) => assignmentStep factor (nested ()))
      fun bound _ => assignment factor bound where
  goes := fun bound _ => (assignment_blamesOnce blames bound).goes
  unfolds := fun _ _ _ _ _ => rfl
  guarded := by
    intro start nested loop ended alike _
    have targets : Alike start start.Steps (disjunction factor) (disjunction factor) :=
      (disjunction_blamesOnce blames).goes.alike start .refl ended
    refine (targets.bind (fun _ => id) (fun _ _ => Relation.ReflTransGen.trans) ?_).same
    intro target middle steps
    refine accept_alike (by decide) (steps.endsOnce ended) (.pure target) fun equals => ?_
    intro later further
    apply (alike () later (steps.trans_further further)).bind
    intro value
    cases target with
    | reference name => exact (Goes.pure _).alike
    | _ => exact (report_goes equals _).then_alike fun _ => (Goes.pure _).alike

theorem assignmentOver_recursesForward {factor : Parse Expr} (blames : BlamesOnce factor) :
    RecursesForward (assignmentStep factor) (assignmentOver factor) :=
  .of_bounded (assignment_bounded blames)

theorem factorOver_alike {inner operand otherInner otherOperand : Parse Expr} {start : Progress}
    (ended : EndsOnce start.cursor.kinds) (inners : AlikeBehind start inner otherInner)
    (operands : AlikeBehind start operand otherOperand) :
    Alike start start.Further (factorOver inner operand) (factorOver otherInner otherOperand) := by
  apply Alike.looking
  cases kind : start.cursor.current.kind with
  | notWord | minus | plus =>
    apply advance_then_alike (by rw [kind]; decide) ended
    intro _ later further
    exact (operands later further).bind fun operand => (Goes.pure _).alike
  | integerLiteral | floatLiteral | stringLiteral | charLiteral | trueWord | falseWord | nullWord |
      dollar | identifier =>
    apply advance_then_alike (by rw [kind]; decide) ended
    intro _ later further
    exact (Goes.pure _).alike
  | leftParen =>
    apply advance_then_alike (by rw [kind]; decide) ended
    intro _ later further
    apply (inners later further).bind
    intro inner
    exact (expect_goes _ _).then_alike fun _ => (Goes.pure _).alike
  | _ => exact .fail _

theorem factor_bounded :
    Bounded (fun nested (_ : Unit) => factorStep (nested ())) fun bound _ => factor bound where
  goes := fun bound _ => (factor_blamesOnce bound).goes
  unfolds := by
    intro bound _ start ended enough
    -- The assignment between parentheses has the bound of the factor, not the tokens left there;
    -- behind the parenthesis that is enough.
    have inners : AlikeBehind start (assignment (factor bound) bound)
        (assignmentOver (factor bound)) :=
      (assignment_bounded (factor_blamesOnce bound)).alikeBehind enough ()
    have operands : AlikeBehind start (factor bound) (factor bound) :=
      (factor_blamesOnce bound).goes.alike.behind
    exact (factorOver_alike ended inners operands).same
  guarded := by
    intro start nested loop ended alike _
    have operands := alike ()
    have inners : AlikeBehind start (assignmentOver (nested ())) (assignmentOver (loop ())) :=
      fun later further => assignmentOver_alike (operands later further)
    exact (factorOver_alike ended inners operands).same

/-- A factor contains others behind a prefix operator or a parenthesis. -/
theorem anyFactor_recursesForward : RecursesForward factorStep anyFactor :=
  .of_bounded factor_bounded

/-- A whole expression is an assignment of such factors, however deep they are. -/
theorem parse_eq {start : Progress} (ended : EndsOnce start.cursor.kinds) :
    parse start = assignmentOver anyFactor start := by
  have factors : AlikeFrom start (factor start.cursor.remaining) anyFactor :=
    factor_bounded.alikeFrom (Nat.le_refl _) ()
  exact (assignment_alike factors _ start .refl ended).same

theorem parse_recursesForward : RecursesForward (assignmentStep anyFactor) parse :=
  (assignmentOver_recursesForward (Walks.counting factor_blamesOnce)).congr fun _ => parse_eq

end Expr

end LineScript
