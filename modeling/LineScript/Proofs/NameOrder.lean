/-
Module: LineScript.Proofs.NameOrder
Purpose: The declarations of a parsed program are listed in the order of its text.
Trusted boundary: none
Main exports: Token.Precedes, Tiles.sorted, LastInText, declared_sorted,
  lastDeclaration?_eq_some_iff
-/
import LineScript.Proofs.LineKeeping
import LineScript.Proofs.SourceTiling
import LineScript.Proofs.SymbolIndex

/-!
Tokens stand one behind the other in a text. The parser moves forward only, and takes the names of a
declaration while it passes them, each behind the type or the comma in front of it. So the declared
names of a program are some of its tokens in their order, and the last declaration of a name in the
list is the last one in the text.
-/

namespace LineScript

/-! ### The order of positions -/

namespace Position

/-- The first place is in an earlier line, or further left in the same line. -/
def Before (one two : Position) : Prop :=
  one.line < two.line ∨ one.line = two.line ∧ one.column < two.column

theorem Before.trans {one two three : Position} (first : one.Before two)
    (second : two.Before three) : one.Before three := by
  unfold Before at *
  omega

/-- Two positions cannot each come before the other. -/
theorem Before.asymm {one two : Position} (first : one.Before two) : ¬ two.Before one := by
  unfold Before at *
  omega

/-- A character moves the position on, a newline too. -/
theorem before_next (position : Position) (char : Char) : position.Before (position.next char) := by
  unfold next
  split
  · exact .inl (Nat.lt_succ_self _)
  · exact .inr ⟨rfl, Nat.lt_succ_self _⟩

/-- A text that is not empty moves the position on. -/
theorem before_after (position : Position) {text : List Char} (nonempty : text ≠ []) :
    position.Before (position.after text) := by
  induction text generalizing position with
  | nil => exact absurd rfl nonempty
  | cons char rest inductionHypothesis =>
    rw [after_cons]
    by_cases last : rest = []
    · rw [last, after_nil]
      exact position.before_next char
    · exact (position.before_next char).trans (inductionHypothesis _ last)

/-- The place behind a text is before the place behind a longer one. -/
theorem behind_before_append (before : List Char) {text : List Char} (nonempty : text ≠ []) :
    (behind before).Before (behind (before ++ text)) := by
  rw [← after_behind]
  exact before_after _ nonempty

end Position

/-! ### The order of tokens -/

/-- One token stands in front of the other. -/
def Token.Precedes (one two : Token) : Prop :=
  one.position.Before two.position

/-- Tokens in order stand at different places. -/
theorem Token.Precedes.position_ne {one two : Token} (precedes : one.Precedes two) :
    one.position ≠ two.position := by
  intro same
  rw [Token.Precedes, same] at precedes
  exact precedes.asymm precedes

/-- The tokens of a tiling stand one behind the other, and behind the text in front of it. -/
theorem Tiles.sorted {before rest : List Char} {tokens : List Token} {errors : List LexicalError}
    (tiles : Tiles before rest tokens errors) :
    tokens.Pairwise Token.Precedes ∧ ∀ token ∈ tokens,
      token.position = .behind before ∨ (Position.behind before).Before token.position := by
  -- A piece that is not empty moves the place on, and what stood behind it stays behind.
  have onward : ∀ {before text : List Char} {tokens : List Token}, text ≠ [] →
      (∀ token ∈ tokens, token.position = .behind (before ++ text) ∨
        (Position.behind (before ++ text)).Before token.position) →
      ∀ token ∈ tokens, (Position.behind before).Before token.position := by
    intro before text tokens nonempty stand token member
    have moved := Position.behind_before_append before nonempty
    rcases stand token member with here | later
    · exact here ▸ moved
    · exact moved.trans later
  induction tiles with
  | done before => simp [Token.endAt]
  | newline _ inductionHypothesis =>
    obtain ⟨sorted, stand⟩ := inductionHypothesis
    have behind := onward (List.cons_ne_nil _ _) stand
    exact ⟨List.pairwise_cons.mpr ⟨behind, sorted⟩,
      List.forall_mem_cons.mpr ⟨.inl rfl, fun token member => .inr (behind token member)⟩⟩
  | token kind literal nonempty _ _ _ _ inductionHypothesis =>
    obtain ⟨sorted, stand⟩ := inductionHypothesis
    have behind := onward nonempty stand
    exact ⟨List.pairwise_cons.mpr ⟨behind, sorted⟩,
      List.forall_mem_cons.mpr ⟨.inl rfl, fun token member => .inr (behind token member)⟩⟩
  | blanks nonempty _ _ _ inductionHypothesis | rejected _ nonempty _ _ _ inductionHypothesis =>
    obtain ⟨sorted, stand⟩ := inductionHypothesis
    exact ⟨sorted, fun token member => .inr (onward nonempty stand token member)⟩
  | comment opened _ _ _ inductionHypothesis =>
    obtain ⟨sorted, stand⟩ := inductionHypothesis
    have nonempty := List.ne_nil_of_length_pos (opened.length_le.trans_lt' (by simp))
    exact ⟨sorted, fun token member => .inr (onward nonempty stand token member)⟩

/-- The tokens and the errors of a text tile it. -/
theorem lex_tiling (source : String) :
    Tiles [] source.toList (lex source).tokens (lex source).errors := by
  rw [lex_eq]
  exact tiles_pieces [] source.toList

/-- Tokens come in the order of their positions. -/
theorem lex_sorted (source : String) : (lex source).tokens.Pairwise Token.Precedes :=
  (lex_tiling source).sorted.1

/-- There is always the token that closes the list. -/
theorem lex_tokens_ne_nil (source : String) : (lex source).tokens ≠ [] := by
  obtain ⟨front, whole, _⟩ := (lex_tiling source).endsAt
  simp [whole]

/-- A parser that starts on the tokens of a text stands on a closed list. -/
theorem lex_closed (source : String) : (Cursor.ofTokens (lex source).tokens).Closed := by
  obtain ⟨front, whole, _⟩ := (lex_tiling source).endsAt
  refine ⟨Token.endAt (.behind ([] ++ source.toList)), ?_, rfl⟩
  rw [Cursor.ahead_ofTokens (lex_tokens_ne_nil source), whole, List.getLast?_concat]

/-! ### The names that a parser collects -/

/-- Declared names come behind commas and the names of types. -/
def TokenKind.LeadsName (kind : TokenKind) : Prop :=
  kind = .comma ∨ ∃ type, kind = .typeName type

/-- Some names are among some tokens in their order, each with a token just in front of it that
leads a name. -/
inductive Led : List Token → List Token → Prop where
  | nil (tokens : List Token) : Led [] tokens
  | skip {names tokens : List Token} (token : Token) (led : Led names tokens) :
      Led names (token :: tokens)
  | name {names tokens : List Token} {lead name : Token} (leads : lead.kind.LeadsName)
      (led : Led names tokens) : Led (name :: names) (lead :: name :: tokens)

namespace Led

variable {names others tokens more : List Token}

/-- The names come in the order of the tokens. -/
theorem sublist (led : Led names tokens) : names.Sublist tokens := by
  induction led with
  | nil tokens => exact List.nil_sublist tokens
  | skip token _ inductionHypothesis => exact inductionHypothesis.cons token
  | name _ _ inductionHypothesis => exact (inductionHypothesis.cons_cons _).cons _

/-- Tokens in front change nothing. -/
theorem behind (front : List Token) (led : Led names tokens) : Led names (front ++ tokens) := by
  induction front with
  | nil => exact led
  | cons token front inductionHypothesis => exact inductionHypothesis.skip token

/-- What follows is collected after what came before. -/
theorem append (led : Led names tokens) (further : Led others more) :
    Led (names ++ others) (tokens ++ more) := by
  induction led with
  | nil tokens => exact further.behind tokens
  | skip token _ inductionHypothesis => exact inductionHypothesis.skip token
  | name leads _ inductionHypothesis => exact inductionHypothesis.name leads

/-- In front of every name collected there is a token that may lead a name. -/
theorem exists_lead (led : Led names tokens) : ∀ name ∈ names,
    ∃ lead : Token, lead.kind.LeadsName ∧ [lead, name] <:+: tokens := by
  induction led with
  | nil tokens => exact List.forall_mem_nil _
  | skip token _ inductionHypothesis =>
    intro name member
    obtain ⟨lead, leads, inside⟩ := inductionHypothesis name member
    exact ⟨lead, leads, List.infix_cons inside⟩
  | @name names tokens lead first leads _ inductionHypothesis =>
    intro name member
    rcases List.mem_cons.mp member with rfl | other
    · exact ⟨lead, leads, List.IsPrefix.isInfix (List.prefix_append [lead, name] tokens)⟩
    · obtain ⟨otherLead, otherLeads, inside⟩ := inductionHypothesis name other
      exact ⟨otherLead, otherLeads, List.infix_cons (List.infix_cons inside)⟩

end Led

open Parse

namespace Parse

variable {α β : Type}

/-- Behind some tokens that have been passed, the names in what the parser finds are those taken
from them before and tokens that it passes itself, each led in, all in their order. -/
def Collects (taken : List Token) (parser : Parse α) (names : α → List Token) : Prop :=
  Walks parser
    (fun value passed _ => ∀ front, Led taken front → Led (names value) (front ++ passed))
    fun _ _ _ => True

/-- A value is collected from no further tokens, if its names are those taken already. -/
theorem Collects.pure {taken : List Token} {value : α} {names : α → List Token}
    (same : names value = taken) : Collects taken (Pure.pure value : Parse α) names := by
  apply Walks.pure
  intro front led
  rwa [same, List.append_nil]

/-- What the first parser takes is handed to the second, which collects from the tokens behind
it. -/
theorem Collects.bind {taken : List Token} {parser : Parse α} {next : α → Parse β}
    {first : α → List Token} {names : β → List Token} (collects : Collects [] parser first)
    (second : ∀ value, Collects (taken ++ first value) (next value) names) :
    Collects taken (parser >>= next) names := by
  apply Walks.bind collects
  intro value between earlier found
  apply (second value).finding
  intro result passed reported collected front led
  have more : Led (first value) between := found [] (.nil [])
  have whole := collected (front ++ between) (led.append more)
  rwa [List.append_assoc] at whole

/-- Behind a parser of which no name is taken. -/
theorem Collects.after {taken : List Token} {parser : Parse α} {next : α → Parse β}
    {found : α → List Token → List SyntaxError → Prop} {names : β → List Token}
    (walks : Walks parser found fun _ _ _ => True)
    (second : ∀ value, Collects taken (next value) names) :
    Collects taken (parser >>= next) names := by
  have nothing : Collects [] parser fun _ => [] := by
    apply walks.finding
    intro value passed reported _ front _
    exact .nil _
  apply nothing.bind
  intro value
  rw [List.append_nil]
  exact second value

/-- Expected words are passed, and no name is collected from them. -/
theorem expectAll_walks (message : String) {kinds : List TokenKind} (inside : .eof ∉ kinds) :
    Walks (expectAll message kinds) (fun _ _ _ => True) fun _ _ _ => True := by
  induction kinds with
  | nil => exact Walks.pure trivial
  | cons kind kinds inductionHypothesis =>
    have other : kind ≠ .eof := Ne.symm (List.ne_of_not_mem_cons inside)
    apply Walks.bind (expect_walks message other fun _ => trivial)
    intro token front earlier _
    exact inductionHypothesis (List.not_mem_of_not_mem_cons inside)

/-- Behind an error nothing is collected, though tokens are passed. -/
theorem recover_collects {parser : Parse α} {names : α → List Token}
    (collects : Collects [] parser names) :
    Collects [] (recover parser) fun found => found.toList.flatMap names := by
  have walks : Walks (recover parser) _ fun _ _ _ => True := recover_walks collects
  apply walks.finding
  intro found passed reported collected front led
  cases found with
  | none => exact .nil _
  | some value => simpa using collected value rfl front led

end Parse

/-- The names of some declarations. -/
def declaredNames (declared : List (VarType × Declarator)) : List Token :=
  declared.map fun declaration => declaration.2.name

namespace Stmt

/-- A declarator starts with its name. -/
theorem declarator_walks : Walks declarator
    (fun found passed _ => ∃ rest, passed = found.name :: rest) fun _ _ _ => True := by
  apply Walks.bind (expect_walks _ (by decide) fun _ => trivial)
  rintro name _ _ ⟨_, rfl, rfl⟩
  apply Walks.bind (accept_walks (by decide))
  intro found between _ _
  cases found with
  | none => exact Walks.pure ⟨between, by simp⟩
  | some sign =>
    apply Walks.bind (Walks.finding Expr.parse_keepsToLine fun _ _ _ onLine => onLine)
    intro expr passed _ _
    exact Walks.pure ⟨between ++ passed, by simp⟩

/-- Behind a token that leads a name, the name of a declarator is led in. -/
theorem declarator_collects {β : Type} {lead : Token} (leads : lead.kind.LeadsName)
    {next : Declarator → Parse β} {names : β → List Token}
    (second : ∀ found, Collects [found.name] (next found) names) :
    Walks (declarator >>= next)
      (fun value passed _ => ∀ front, Led (names value) (front ++ lead :: passed))
      fun _ _ _ => True := by
  apply Walks.bind declarator_walks
  rintro found _ _ ⟨rest, rfl⟩
  apply (second found).finding
  intro value passed reported collected front
  exact (collected (lead :: found.name :: rest) (.name leads (.nil rest))).behind front

/-- The names behind the first one of a declaration, in order. -/
theorem moreDeclarators_collects (bound : Nat) :
    Collects [] (moreDeclarators bound) fun found => found.map Declarator.name := by
  induction bound with
  | zero => exact Collects.pure rfl
  | succ bound inductionHypothesis =>
    apply Walks.bind (accept_walks (by decide))
    rintro found _ _ ⟨rfl, shape⟩
    cases found with
    | none => exact Walks.pure fun front _ => .nil _
    | some comma =>
      obtain ⟨kind, rfl⟩ := shape
      have leads : comma.kind.LeadsName := .inl (List.mem_singleton.mp kind)
      refine Walks.finding (declarator_collects leads fun next => ?_)
        fun value passed _ led front _ => led front
      apply inductionHypothesis.bind
      intro rest
      exact Collects.pure rfl

/-- A type is one token, and it may lead a name. -/
theorem typeName_walks : Walks typeName
    (fun _ passed _ => ∃ token : Token, passed = [token] ∧ token.kind.LeadsName)
    fun _ _ _ => True := by
  apply Walks.looking
  intro start closed
  split
  case h_1 type kind =>
    exact WalksFrom.passing closed (by simp [kind]) (Walks.pure ⟨_, rfl, .inr ⟨type, kind⟩⟩)
  case h_2 => exact fail_walks _ (fun _ => trivial) start closed

/-- A declaration collects its names, each from its own token. -/
theorem declaration_collects :
    Collects [] declaration fun statement => declaredNames statement.declared := by
  apply Collects.after (expect_walks _ (by decide) fun _ => trivial)
  intro keyword
  apply Walks.bind typeName_walks
  rintro type _ _ ⟨token, rfl, leads⟩
  refine Walks.finding (declarator_collects leads fun first => ?_)
    fun value passed _ led front _ => led front
  apply Walks.counting
  intro bound
  apply (moreDeclarators_collects bound).bind
  intro others
  apply Collects.after (Walks.finding (endLine_closesLine _) fun _ _ _ closed => closed)
  intro _
  apply Collects.pure
  simp [declaredNames, declared]

end Stmt

namespace Program

/-- Declaration after declaration, in the order of the lines. -/
theorem declarationsFrom_collects (bound : Nat) :
    Collects [] (declarationsFrom bound) fun found => declaredNames (declared found) := by
  induction bound with
  | zero => exact Collects.pure rfl
  | succ bound inductionHypothesis =>
    apply Walks.checking
    intro more
    cases more with
    | false => exact Collects.pure rfl
    | true =>
      apply (recover_collects Stmt.declaration_collects).bind
      intro found
      apply Collects.after skipNewlines_walks
      intro _
      apply inductionHypothesis.bind
      intro rest
      apply Collects.pure
      simp [declaredNames, declared, List.map_flatMap]

theorem header_walks : Walks header (fun _ _ _ => True) fun _ _ _ => True := by
  apply Walks.bind skipNewlines_walks
  intro _ _ _ _
  apply Walks.bind (expectAll_walks _ (by decide))
  intro _ _ _ _
  apply Walks.bind skipNewlines_walks
  intro _ _ _ _
  exact expectAll_walks _ (by decide)

/-- Only the opening of a program declares names. -/
theorem opening_collects :
    Collects [] (do header; declarations) fun found => declaredNames (declared found) := by
  apply Collects.after header_walks
  intro _
  apply Collects.after skipNewlines_walks
  intro _
  exact Walks.counting declarationsFrom_collects

/-- The declared names of a program are some of its tokens, in their order, each led in. -/
theorem declaredNames_led {tokens : List Token} {program : List Stmt} (nonempty : tokens ≠ [])
    (closed : (Cursor.ofTokens tokens).Closed) (parsed : (parse tokens).program = some program) :
    Led (declaredNames (declared program)) tokens := by
  obtain ⟨_, ended⟩ := statements_of_parse parsed
  obtain ⟨_, opened, header, ended⟩ := Action.bind_eq_ok.mp ended
  obtain ⟨first, middle, declarations, ended⟩ := Action.bind_eq_ok.mp ended
  obtain ⟨rest, last, run, ended⟩ := Action.bind_eq_ok.mp ended
  obtain ⟨_, final, _, ended⟩ := Action.bind_eq_ok.mp ended
  cases ended
  -- Nothing is declared behind the declarations.
  have executable : Stmt.EachExecutable rest :=
    Stmt.run_gives (Stmt.statement_gives _) .topLevel _ _ _ run
  have same : declared (first ++ rest) = declared first := by
    rw [declared, List.flatMap_append]
    exact (congrArg _ (declared_of_executable executable)).trans (List.append_nil _)
  have collected := opening_collects (Progress.ofTokens tokens) closed
  unfold WalksFrom at collected
  rw [Action.bind_of_ok header, declarations] at collected
  obtain ⟨passed, _, walk, names⟩ := collected
  have ahead := walk.moved.ahead
  rw [show (Progress.ofTokens tokens).cursor = Cursor.ofTokens tokens from rfl,
    Cursor.ahead_ofTokens nonempty] at ahead
  rw [same, ahead]
  have within := (names [] (.nil [])).append (.nil middle.cursor.ahead)
  rwa [List.append_nil] at within

/-- The names that a program declares are tokens of the text, in their order, and no token counts
twice. -/
theorem declaredNames_sublist {tokens : List Token} {program : List Stmt} (nonempty : tokens ≠ [])
    (closed : (Cursor.ofTokens tokens).Closed) (parsed : (parse tokens).program = some program) :
    (declaredNames (declared program)).Sublist tokens :=
  (declaredNames_led nonempty closed parsed).sublist

/-- The declarations of a text stand one behind the other. -/
theorem declared_sorted {source : String} {program : List Stmt}
    (parsed : (parse (lex source).tokens).program = some program) :
    (declared program).Pairwise fun one two => one.2.name.Precedes two.2.name := by
  have sublist := declaredNames_sublist (lex_tokens_ne_nil source) (lex_closed source) parsed
  exact List.pairwise_map.mp ((lex_sorted source).sublist sublist)

end Program

/-! ### The last declaration of a name -/

/-- Among some declarations, the given one is of a name, and every other one of that name stands in
front of it. -/
structure LastInText (declared : List (VarType × Declarator)) (name : String)
    (declaration : VarType × Declarator) : Prop where
  listed : declaration ∈ declared
  named : declaration.2.name.lexeme = name
  last : ∀ other ∈ declared, other.2.name.lexeme = name →
    other = declaration ∨ other.2.name.Precedes declaration.2.name

/-- A name has one last declaration. -/
theorem LastInText.unique {declared : List (VarType × Declarator)} {name : String}
    {one two : VarType × Declarator} (first : LastInText declared name one)
    (second : LastInText declared name two) : one = two := by
  rcases second.last one first.listed first.named with same | before
  · exact same
  · rcases first.last two second.listed second.named with same | behind
    · exact same.symm
    · exact absurd behind before.asymm

/-- Of declarations that stand one behind the other, the last one of a name in the list is the last
one in the text. -/
theorem lastDeclaration?_eq_some_iff {declared : List (VarType × Declarator)} {name : String}
    (sorted : declared.Pairwise fun one two => one.2.name.Precedes two.2.name)
    {declaration : VarType × Declarator} :
    lastDeclaration? declared name = some declaration ↔ LastInText declared name declaration := by
  have finds : ∀ {found}, lastDeclaration? declared name = some found →
      LastInText declared name found := by
    intro found last
    obtain ⟨named, behind, front, split, others⟩ := List.find?_eq_some_iff_append.mp last
    have whole : declared = front.reverse ++ found :: behind.reverse := by
      rw [← List.reverse_reverse declared, split]
      simp
    subst whole
    refine ⟨by simp, by simpa using named, fun other member sameName => ?_⟩
    rcases List.mem_append.mp member with before | rest
    · exact .inr ((List.pairwise_append.mp sorted).2.2 other before found List.mem_cons_self)
    · rcases List.mem_cons.mp rest with same | later
      · exact .inl same
      · have unnamed := others other (List.mem_reverse.mp later)
        simp [sameName] at unnamed
  constructor
  · exact finds
  · intro last
    have present : (lastDeclaration? declared name).isSome :=
      lastDeclaration?_isSome.mpr (List.mem_map.mpr ⟨declaration, last.listed, last.named⟩)
    obtain ⟨found, same⟩ := Option.isSome_iff_exists.mp present
    rw [same, last.unique (finds same)]

end LineScript
