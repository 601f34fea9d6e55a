/-
Module: LineScript.Proofs.ParserSteps
Purpose: A parser never leaves its tokens, and every turn of its loops takes it further.
Trusted boundary: none
Main exports: Progress.Step, Steps, Further, Visited, Goes, Strides, Advances, round_advances
-/
import Mathlib.Logic.Relation
import LineScript.Proofs.BlamedTokens
import LineScript.Proofs.LineRecovery

/-!
What a parser does to its progress are steps of two kinds: it passes the current token, which is
never the end of the text, or it reports an error. So its cursor stays at a token and never goes
back. A loop over statements or declarations takes a turn only in front of a token that does not end
the text. If the item of the turn is found, it passed a token. If it is given up, recovery passes
the token where that happened, unless the text ends there; but then the token in front of the item
was passed before.
-/

namespace LineScript

open Parse Progress

/-! ### Steps -/

namespace Progress

/-- The current token is passed, unless it ends the text, or an error is reported. -/
inductive Step : Progress → Progress → Prop where
  | pass {progress : Progress} (inside : progress.cursor.current.kind ≠ .eof) :
      Step progress { progress with cursor := progress.cursor.advance }
  | report {progress : Progress} (error : SyntaxError) :
      Step progress (progress.reporting error)

/-- Any number of steps. -/
abbrev Steps : Progress → Progress → Prop :=
  Relation.ReflTransGen Step

/-- Some steps, of which one at least passes a token. -/
structure Further (start reached : Progress) : Prop where
  steps : start.Steps reached
  index : start.cursor.index < reached.cursor.index

/-- What a parser that starts on the tokens can come to. -/
def Visited (tokens : List Token) (progress : Progress) : Prop :=
  (ofTokens tokens).Steps progress

variable {start middle reached : Progress}

/-- A step keeps the list closed by its only end. -/
theorem Step.endsOnce (step : start.Step reached) (ended : EndsOnce start.cursor.kinds) :
    EndsOnce reached.cursor.kinds := by
  cases step with
  | pass inside => exact Cursor.endsOnce_advance ended
  | report error => exact ended

/-- So does any number of steps. -/
theorem Steps.endsOnce (steps : start.Steps reached) (ended : EndsOnce start.cursor.kinds) :
    EndsOnce reached.cursor.kinds := by
  induction steps with
  | refl => exact ended
  | tail _ step inductionHypothesis => exact step.endsOnce inductionHypothesis

/-- A step moves the cursor over some tokens, or over none. -/
theorem Step.exists_moved (step : start.Step reached) :
    ∃ passed, start.cursor.Moved passed reached.cursor := by
  cases step with
  | pass inside => exact start.cursor.exists_moved_advance
  | report error => exact ⟨[], Cursor.Moved.refl _⟩

/-- So does any number of steps. -/
theorem Steps.exists_moved (steps : start.Steps reached) :
    ∃ passed, start.cursor.Moved passed reached.cursor := by
  induction steps with
  | refl => exact ⟨[], Cursor.Moved.refl _⟩
  | tail _ step inductionHypothesis =>
    obtain ⟨front, before⟩ := inductionHypothesis
    obtain ⟨passed, moved⟩ := step.exists_moved
    exact ⟨_, before.trans moved⟩

end Progress

/-! ### Where a cursor stands -/

namespace Cursor

/-- The cursor stands at one of some tokens, and sees this token. -/
structure StandsIn (tokens : List Token) (cursor : Cursor) : Prop where
  inside : cursor.index < tokens.length
  current : tokens[cursor.index]? = some cursor.current

variable {start reached : Cursor} {passed : List Token}

/-- The cursor moves over the tokens, and they stay what they are. -/
theorem Moved.tokens_eq (moved : start.Moved passed reached) : reached.tokens = start.tokens := by
  have front : reached.tokens = reached.before.reverse ++ reached.ahead := rfl
  rw [front, moved.before, List.reverse_append, List.reverse_reverse, List.append_assoc,
    ← moved.ahead]
  rfl

/-- To pass nothing is to stand still. -/
theorem Moved.eq_of_nil (moved : start.Moved [] reached) : reached = start := by
  obtain ⟨before, current, after⟩ := start
  obtain ⟨_, _, _⟩ := reached
  obtain ⟨rfl, ahead⟩ := moved
  cases ahead
  rfl

/-- Each token passed counts one place. -/
theorem Moved.index_eq (moved : start.Moved passed reached) :
    reached.index = start.index + passed.length := by
  rw [index, moved.before, List.length_append, List.length_reverse, Nat.add_comm]
  rfl

/-- Wherever it stands, a cursor sees one of its tokens. -/
theorem standsIn_tokens (cursor : Cursor) : cursor.StandsIn cursor.tokens where
  inside := by simp [tokens, index]
  current := by simp [tokens, index]

/-- The place of a cursor and the tokens left from it make up the whole list. -/
theorem index_add_remaining (cursor : Cursor) :
    cursor.index + cursor.remaining = cursor.tokens.length := by
  simp [index, remaining, tokens]

theorem tokens_ofTokens {tokens : List Token} (nonempty : tokens ≠ []) :
    (ofTokens tokens).tokens = tokens := by
  obtain ⟨first, rest, rfl⟩ := List.exists_cons_of_ne_nil nonempty
  rfl

end Cursor

namespace Progress

variable {start middle reached : Progress}

theorem Steps.tokens_eq (steps : start.Steps reached) :
    reached.cursor.tokens = start.cursor.tokens := by
  obtain ⟨passed, moved⟩ := steps.exists_moved
  exact moved.tokens_eq

/-- Steps never lead back. -/
theorem Steps.index_le (steps : start.Steps reached) :
    start.cursor.index ≤ reached.cursor.index := by
  obtain ⟨passed, moved⟩ := steps.exists_moved
  rw [moved.index_eq]
  exact Nat.le_add_right _ _

/-- What goes further goes further with any steps behind it. -/
theorem Further.trans_steps (first : start.Further middle) (second : middle.Steps reached) :
    start.Further reached :=
  ⟨first.steps.trans second, Nat.lt_of_lt_of_le first.index second.index_le⟩

/-- It does so with any steps in front of it. -/
theorem Steps.trans_further (first : start.Steps middle) (second : middle.Further reached) :
    start.Further reached :=
  ⟨first.trans second.steps, Nat.lt_of_le_of_lt first.index_le second.index⟩

theorem Steps.index_add_remaining (steps : start.Steps reached) :
    start.cursor.index + start.cursor.remaining =
      reached.cursor.index + reached.cursor.remaining := by
  rw [Cursor.index_add_remaining, Cursor.index_add_remaining, steps.tokens_eq]

/-- Steps leave no more tokens than there were. -/
theorem Steps.remaining_le (steps : start.Steps reached) :
    reached.cursor.remaining ≤ start.cursor.remaining := by
  have whole := steps.index_add_remaining
  have index := steps.index_le
  omega

/-- Who goes further has fewer tokens left. -/
theorem Further.remaining_lt (further : start.Further reached) :
    reached.cursor.remaining < start.cursor.remaining := by
  have whole := further.steps.index_add_remaining
  have index := further.index
  omega

/-- Who sees another token than before has gone further. -/
theorem Steps.further_of_current_ne (steps : start.Steps reached)
    (other : reached.cursor.current ≠ start.cursor.current) : start.Further reached := by
  refine ⟨steps, Nat.lt_of_le_of_ne steps.index_le fun same => other ?_⟩
  have first := start.cursor.standsIn_tokens.current
  have second := reached.cursor.standsIn_tokens.current
  rw [steps.tokens_eq, ← same, first] at second
  exact (Option.some.inj second).symm

/-- Wherever a parser can come, it stands at one of the tokens given. -/
theorem Visited.standsIn {tokens : List Token} {progress : Progress}
    (nonempty : tokens ≠ []) (visited : Visited tokens progress) :
    progress.cursor.StandsIn tokens := by
  have stands := progress.cursor.standsIn_tokens
  rwa [visited.tokens_eq, ofTokens, Cursor.tokens_ofTokens nonempty] at stands

/-! ### The steps of a walk -/

/-- Errors that were reported at one place were reported one by one. -/
theorem steps_reporting {reported : List SyntaxError} (cursor : reached.cursor = start.cursor)
    (errors : reached.errors = start.errors ++ reported) : start.Steps reached := by
  induction reported generalizing start with
  | nil =>
    rw [List.append_nil] at errors
    rw [ext_errors cursor errors]
  | cons error others inductionHypothesis =>
    have rest : reached.errors = (start.reporting error).errors ++ others := by
      rw [errors, reporting_errors, List.append_assoc, List.singleton_append]
    exact .head (.report error) (inductionHypothesis cursor rest)

/-- Tokens that were passed were passed one by one, and none of them ends the text. -/
theorem steps_passing {passed : List Token} (ended : EndsOnce start.cursor.kinds)
    (moved : start.cursor.Moved passed reached.cursor) (errors : reached.errors = start.errors) :
    start.Steps reached := by
  induction passed generalizing start with
  | nil => rw [ext_errors moved.eq_of_nil errors]
  | cons token others inductionHypothesis =>
    obtain ⟨⟨before, current, after⟩, reports, failed, failed_eq⟩ := start
    obtain ⟨behind, ahead⟩ := moved
    obtain ⟨rfl, rfl⟩ := List.cons.inj ahead
    obtain ⟨next, rest, more⟩ : ∃ next rest, others ++ reached.cursor.ahead = next :: rest :=
      List.exists_cons_of_ne_nil (List.append_ne_nil_of_right_ne_nil _ (List.cons_ne_nil _ _))
    change others.append reached.cursor.ahead = next :: rest at more
    rw [more] at ended ⊢
    have inside : current.kind ≠ .eof := by
      intro last
      rw [Cursor.kinds, last, EndsOnce.eof_cons_iff] at ended
      cases ended
    have first : Step ⟨⟨before, current, next :: rest⟩, reports, failed, failed_eq⟩
        ⟨⟨current :: before, next, rest⟩, reports, failed, failed_eq⟩ := by
      have advanced : Cursor.advance ⟨before, current, next :: rest⟩ =
          ⟨current :: before, next, rest⟩ := if_neg inside
      exact advanced ▸ .pass inside
    have onward : Cursor.Moved ⟨current :: before, next, rest⟩ others reached.cursor :=
      ⟨by rw [behind, List.reverse_cons, List.append_assoc]; rfl, more.symm⟩
    exact .head first (inductionHypothesis ((EndsOnce.cons_iff inside).mp ended) onward errors)

/-- A walk over tokens is made of steps, one for every token and every report. -/
theorem Walk.steps {passed : List Token} {reported : List SyntaxError}
    (walk : start.Walk passed reported reached) (ended : EndsOnce start.cursor.kinds) :
    start.Steps reached := by
  have passes : start.Steps { start with cursor := reached.cursor } :=
    steps_passing ended walk.moved rfl
  exact passes.trans (steps_reporting rfl walk.errors)

/-- A walk over some token goes further. -/
theorem Walk.further {passed : List Token} {reported : List SyntaxError}
    (walk : start.Walk passed reported reached) (ended : EndsOnce start.cursor.kinds)
    (some : passed ≠ []) : start.Further reached where
  steps := walk.steps ended
  index := by
    rw [walk.moved.index_eq]
    exact Nat.lt_add_of_pos_right (List.length_pos_iff.mpr some)

/-- A walk over nothing that reports nothing is no move at all. -/
theorem Walk.eq_of_nil (walk : start.Walk [] [] reached) : reached = start := by
  obtain ⟨moved, same⟩ := walk
  rw [List.append_nil] at same
  exact ext_errors moved.eq_of_nil same

/-- Moving the cursor forward reports nothing. -/
theorem Walk.of_moved {passed : List Token} {cursor : Cursor}
    (moved : start.cursor.Moved passed cursor) :
    start.Walk passed [] { start with cursor := cursor } :=
  ⟨moved, (List.append_nil _).symm⟩

/-- Passing a token that does not end the text goes further. -/
theorem further_advance (ended : EndsOnce start.cursor.kinds)
    (inside : start.cursor.current.kind ≠ .eof) :
    start.Further { start with cursor := start.cursor.advance } :=
  (Walk.of_moved (Cursor.moved_advance (Cursor.closed_of_endsOnce ended) inside)).further ended
    (List.cons_ne_nil _ _)

/-- Recovery goes on from wherever it starts. -/
theorem steps_synchronize (ended : EndsOnce start.cursor.kinds) :
    start.Steps { start with cursor := start.cursor.synchronize } := by
  obtain ⟨passed, moved⟩ := start.cursor.exists_moved_synchronize
  exact (Walk.of_moved moved).steps ended

/-- It goes further unless it starts at the end of the text. -/
theorem further_synchronize (ended : EndsOnce start.cursor.kinds)
    (inside : start.cursor.current.kind ≠ .eof) :
    start.Further { start with cursor := start.cursor.synchronize } := by
  obtain ⟨more, moved⟩ :=
    Cursor.moved_synchronize_current (Cursor.closed_of_endsOnce ended) inside
  exact (Walk.of_moved moved).further ended (List.cons_ne_nil _ _)

end Progress

/-! ### Parsers that go by steps -/

namespace Parse

variable {α β : Type} {parser : Parse α} {start reached : Progress}

/-- The first condition holds of the place where something was found, or the second one of the place
where the parser gave up. -/
def Ends (found lost : Progress → Prop) : EStateM.Result SyntaxError Progress α → Prop
  | .ok _ reached => found reached
  | .error _ reached => lost reached

/-- Wherever the parser ends, it comes there by steps. -/
def Goes (parser : Parse α) : Prop :=
  ∀ start : Progress, EndsOnce start.cursor.kinds → Ends start.Steps start.Steps (parser start)

/-- It also passes a token for whatever it finds. -/
def Strides (parser : Parse α) : Prop :=
  ∀ start : Progress, EndsOnce start.cursor.kinds → Ends start.Further start.Steps (parser start)

/-- From the given start, the parser finds something and passes a token. -/
def Advances (parser : Parse α) (start : Progress) : Prop :=
  ∃ value reached, parser start = .ok value reached ∧ start.Further reached

/-- Weaker conditions hold of the same ending. -/
theorem Ends.weaken {found lost other worse : Progress → Prop}
    {ending : EStateM.Result SyntaxError Progress α} (ends : Ends found lost ending)
    (finds : ∀ reached, found reached → other reached)
    (loses : ∀ reached, lost reached → worse reached) : Ends other worse ending := by
  cases ending with
  | ok value reached => exact finds _ ends
  | error error reached => exact loses _ ends

/-- What strides goes. -/
theorem Strides.goes (strides : Strides parser) : Goes parser :=
  fun start ended => (strides start ended).weaken (fun _ further => further.steps) fun _ => id

/-- A sequence of parsers ends where the second one does, or where the first one gave up. -/
theorem Ends.bind {next : α → Parse β} {found lost final : Progress → Prop}
    (first : Ends found lost (parser start))
    (second : ∀ value reached, found reached → Ends final lost (next value reached)) :
    Ends final lost ((parser >>= next) start) := by
  rw [Action.bind_apply]
  cases ending : parser start with
  | ok value reached =>
    rw [ending] at first
    exact second value reached first
  | error error reached =>
    rw [ending] at first
    exact first

theorem Goes.pure (value : α) : Goes (Pure.pure value : Parse α) :=
  fun _ _ => .refl

/-- Two parsers that go by steps do so one after the other. -/
theorem Goes.bind {next : α → Parse β} (first : Goes parser) (second : ∀ value, Goes (next value)) :
    Goes (parser >>= next) := by
  intro start ended
  apply (first start ended).bind
  intro value middle begins
  have continues := second value middle (begins.endsOnce ended)
  exact continues.weaken (fun _ => begins.trans) fun _ => begins.trans

section Walks

variable {found : α → List Token → List SyntaxError → Prop}
  {lost : List Token → Token → List SyntaxError → Prop}

/-- Where a parser ends is told by the way it walks there. -/
theorem Walks.ends (walks : Walks parser found lost) (ended : EndsOnce start.cursor.kinds)
    {final : Progress → Prop}
    (finds : ∀ {value passed reported reached}, start.Walk passed reported reached →
      found value passed reported → final reached) :
    Ends final start.Steps (parser start) := by
  have walksFrom := walks start (Cursor.closed_of_endsOnce ended)
  unfold WalksFrom at walksFrom
  cases ending : parser start with
  | ok value reached =>
    rw [ending] at walksFrom
    obtain ⟨passed, reported, walk, holds⟩ := walksFrom
    exact finds walk holds
  | error error reached =>
    rw [ending] at walksFrom
    obtain ⟨passed, reported, walk, _⟩ := walksFrom
    exact walk.steps ended

/-- A parser that blames the tokens it passes goes by steps. -/
theorem BlamesOnce.goes (blames : BlamesOnce parser) : Goes parser :=
  fun _ ended => Walks.ends blames ended fun walk _ => walk.steps ended

/-- A walk that passes a token for whatever it finds is a stride. -/
theorem Strides.of_walks (walks : Walks parser found lost)
    (passes : ∀ value passed reported, found value passed reported → passed ≠ []) :
    Strides parser :=
  fun _ ended => walks.ends ended fun walk holds => walk.further ended (passes _ _ _ holds)

end Walks

/-- To close a line is to pass the newline at least. -/
theorem ClosesLine.strides (closes : ClosesLine parser) : Strides parser := by
  apply Strides.of_walks closes
  rintro value passed reported ⟨front, newline, rfl, _⟩
  exact List.append_ne_nil_of_right_ne_nil front (List.cons_ne_nil _ _)

/-! #### The steps of parsers -/

theorem current_goes : Goes current :=
  fun _ _ => .refl

theorem remaining_goes : Goes remaining :=
  fun _ _ => .refl

theorem check_goes (kinds : List TokenKind) : Goes (check kinds) :=
  fun _ _ => .refl

theorem report_goes (token : Token) (message : String) : Goes (report token message) :=
  fun _ _ => .single (.report _)

theorem fail_goes (message : String) : Goes (fail message : Parse α) :=
  (fail_blamesOnce message).goes

/-- Advancing is a step, or none at the end of the text. -/
theorem advance_goes : Goes advance := by
  intro start _
  by_cases last : start.cursor.current.kind = .eof
  · show start.Steps { start with cursor := start.cursor.advance }
    rw [Cursor.advance_of_eof last]
  · exact .single (.pass last)

/-- Moving the cursor forward. -/
theorem move_goes {step : Cursor → Cursor}
    (moves : ∀ cursor : Cursor, ∃ passed, cursor.Moved passed (step cursor)) :
    Goes (move step) := by
  intro start ended
  obtain ⟨passed, moved⟩ := moves start.cursor
  exact (Walk.of_moved moved).steps ended

theorem skipNewlines_goes : Goes skipNewlines :=
  skipNewlines_blamesOnce.goes

theorem skipLine_goes : Goes skipLine :=
  move_goes fun cursor => by
    obtain ⟨first, stopped⟩ := Cursor.exists_moved_passWhile
      (fun kind => kind != .newline && kind != .eof) cursor.before cursor.current cursor.after
    rw [Cursor.skipLine_eq]
    split
    · obtain ⟨second, advanced⟩ := cursor.lineEnd.exists_moved_advance
      exact ⟨_, stopped.trans advanced⟩
    · exact ⟨_, stopped⟩

theorem synchronize_goes : Goes synchronize :=
  fun _ => steps_synchronize

/-- A token that is looked for is passed or left where it is. -/
theorem accept_goes (kinds : List TokenKind) : Goes (accept kinds) := by
  apply (check_goes kinds).bind
  intro listed
  cases listed with
  | true => exact advance_goes.bind fun token => .pure _
  | false => exact .pure _

theorem expect_goes (kind : TokenKind) (message : String) : Goes (expect kind message) := by
  apply (check_goes [kind]).bind
  intro listed
  cases listed with
  | true => exact advance_goes
  | false => exact fail_goes message

/-- An expected token that is found has been passed. -/
theorem expect_strides {kind : TokenKind} (message : String) (inside : kind ≠ .eof) :
    Strides (expect kind message) := by
  have walks : Walks (expect kind message) _ fun _ _ _ => True :=
    expect_walks message inside fun _ => trivial
  apply Strides.of_walks walks
  rintro token passed reported ⟨_, rfl, _⟩
  exact List.cons_ne_nil _ _

theorem expectAll_goes (message : String) (kinds : List TokenKind) :
    Goes (expectAll message kinds) := by
  induction kinds with
  | nil => exact .pure ()
  | cons kind rest inductionHypothesis =>
    exact (expect_goes kind message).bind fun _ => inductionHypothesis

theorem endLine_goes (message : String) : Goes (endLine message) :=
  (endLine_blamesOnce message).goes

/-! ### The turns of a loop -/

section Turns

variable {item : Parse α}

/-- A turn of a loop over lines: an item, and the blank lines behind it. -/
def turn (item : Parse α) : Parse α := do
  let found ← item
  skipNewlines
  return found

/-- The blank lines behind an item do not undo its advance. -/
theorem Advances.turn (advances : Advances item start) (ended : EndsOnce start.cursor.kinds) :
    Advances (turn item) start := by
  obtain ⟨value, middle, ending, further⟩ := advances
  have skips := skipNewlines_goes middle (further.steps.endsOnce ended)
  refine ⟨value, _, ?_, further.trans_steps skips⟩
  unfold Parse.turn
  rw [Action.bind_of_ok ending]
  rfl

/-- Recovery itself need not pass a token: at the end of the text there is none. But in front of an
item the text does not end, so then the item passed one. -/
theorem recover_advances (strides : Strides item) (ended : EndsOnce start.cursor.kinds)
    (inside : start.cursor.current.kind ≠ .eof) : Advances (recover item) start := by
  have ends := strides start ended
  unfold Advances recover
  cases ending : item start with
  | ok value reached =>
    rw [ending] at ends
    exact ⟨some value, reached, rfl, ends⟩
  | error error reached =>
    rw [ending] at ends
    have steps : start.Steps reached := ends
    have still := steps.endsOnce ended
    refine ⟨none, _, rfl, ?_⟩
    by_cases last : reached.cursor.current.kind = .eof
    · have other : reached.cursor.current ≠ start.cursor.current := fun same =>
        inside (same ▸ last)
      exact (steps.further_of_current_ne other).trans_steps (steps_synchronize still)
    · exact steps.trans_further (further_synchronize still last)

end Turns

end Parse

namespace Stmt

/-- A stray `END` is reported and passed with its line; anything else is tried as a statement. -/
theorem round_advances {item : Parse Stmt} {start : Progress} (strides : Strides item)
    (ended : EndsOnce start.cursor.kinds) (inside : start.cursor.current.kind ≠ .eof) :
    Advances (round item) start := by
  by_cases stray : start.cursor.current.kind = .endWord
  · obtain ⟨more, moved⟩ := Cursor.moved_skipLine_current (Cursor.closed_of_endsOnce ended)
      (by rw [stray]; decide)
    have walk : start.Walk (start.cursor.current :: more)
        [⟨start.cursor.current, "Unexpected 'END' without a matching block"⟩]
        ({ start with cursor := start.cursor.skipLine }.reporting
          ⟨start.cursor.current, "Unexpected 'END' without a matching block"⟩) := ⟨moved, rfl⟩
    refine ⟨none, _, ?_, walk.further ended (List.cons_ne_nil _ _)⟩
    simp [round, Action.bind_apply, check, stray, current, report, skipLine]
    rfl
  · have tries : round item start = recover item start := by
      simp [round, Action.bind_apply, check, stray]
    unfold Advances
    rw [tries]
    exact recover_advances strides ended inside

end Stmt

end LineScript
