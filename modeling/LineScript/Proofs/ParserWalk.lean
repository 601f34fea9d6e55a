/-
Module: LineScript.Proofs.ParserWalk
Purpose: Which tokens a parser passes, and which errors it reports on its way.
Trusted boundary: none
Main exports: Cursor.Moved, Progress.Walk, Walks, Takes, recover_walks
-/
import LineScript.Proofs.ParallelParsing

/-!
A parser only moves forward, and what it has reported stays reported. So the way from one progress
to a later one is told by the tokens passed and the errors reported in between. `Walks` says of a
parser which tokens and errors these can be, for the case that it finds something and for the case
that it gives up, and has a rule for every step that parsers are made of.
-/

namespace LineScript

/-! ### Moving a cursor -/

namespace Cursor

/-- The last of the tokens ahead ends the text. -/
def Closed (cursor : Cursor) : Prop :=
  ∃ last, cursor.ahead.getLast? = some last ∧ last.kind = .eof

theorem ahead_ofTokens {tokens : List Token} (nonempty : tokens ≠ []) :
    (ofTokens tokens).ahead = tokens := by
  obtain ⟨first, rest, rfl⟩ := List.exists_cons_of_ne_nil nonempty
  rfl

/-- The cursor has passed some tokens. -/
structure Moved (start : Cursor) (passed : List Token) (reached : Cursor) : Prop where
  before : reached.before = passed.reverse ++ start.before
  ahead : start.ahead = passed ++ reached.ahead

theorem Moved.refl (cursor : Cursor) : cursor.Moved [] cursor :=
  ⟨rfl, rfl⟩

theorem Moved.trans {start middle reached : Cursor} {first second : List Token}
    (begins : start.Moved first middle) (continues : middle.Moved second reached) :
    start.Moved (first ++ second) reached where
  before := by rw [continues.before, begins.before, List.reverse_append, List.append_assoc]
  ahead := by rw [begins.ahead, continues.ahead, List.append_assoc]

/-- What was passed stood in front of what is still ahead, so the end is the same. -/
theorem Moved.closed {start reached : Cursor} {passed : List Token} (closed : start.Closed)
    (moved : start.Moved passed reached) : reached.Closed := by
  have more : reached.ahead ≠ [] := List.cons_ne_nil _ _
  rwa [Closed, moved.ahead, List.getLast?_append_of_ne_nil passed more] at closed

/-- What is ahead is told by what was passed. -/
theorem Moved.ahead_eq {start reached : Cursor} {passed rest : List Token}
    (moved : start.Moved passed reached) (faces : start.ahead = passed ++ rest) :
    reached.ahead = rest :=
  List.append_cancel_left (moved.ahead.symm.trans faces)

/-- In a closed text there is a token behind every token but the last. -/
theorem Closed.after_ne_nil {cursor : Cursor} (closed : cursor.Closed)
    (inside : cursor.current.kind ≠ .eof) : cursor.after ≠ [] := by
  obtain ⟨last, ending, ends⟩ := closed
  intro none
  rw [ahead, none] at ending
  cases ending
  exact inside ends

/-- Advancing passes the current token. -/
theorem moved_advance {cursor : Cursor} (closed : cursor.Closed)
    (inside : cursor.current.kind ≠ .eof) : cursor.Moved [cursor.current] cursor.advance := by
  obtain ⟨before, current, after⟩ := cursor
  obtain ⟨next, rest, rfl⟩ := List.exists_cons_of_ne_nil (closed.after_ne_nil inside)
  rw [advance, if_neg inside]
  exact ⟨rfl, rfl⟩

theorem exists_moved_advance (cursor : Cursor) : ∃ passed, cursor.Moved passed cursor.advance := by
  obtain ⟨before, current, after⟩ := cursor
  unfold advance
  split
  · exact ⟨[], Moved.refl _⟩
  · cases after with
    | nil => exact ⟨[], Moved.refl _⟩
    | cons next rest => exact ⟨[current], rfl, rfl⟩

/-- Passing over tokens of some sort is a move. -/
theorem exists_moved_passWhile (sort : TokenKind → Bool) (before : List Token) (current : Token)
    (after : List Token) :
    ∃ passed, (⟨before, current, after⟩ : Cursor).Moved passed
      (passWhile sort before current after) := by
  induction after generalizing before current with
  | nil => exact ⟨[], Moved.refl _⟩
  | cons next rest inductionHypothesis =>
    unfold passWhile
    split
    · obtain ⟨passed, moved⟩ := inductionHypothesis (current :: before) next
      have first : (⟨before, current, next :: rest⟩ : Cursor).Moved [current]
          ⟨current :: before, next, rest⟩ := ⟨rfl, rfl⟩
      exact ⟨_, first.trans moved⟩
    · exact ⟨[], Moved.refl _⟩

/-- So is looking for a place to resume at. -/
theorem exists_moved_passUntilResumption (previous : Token) (before : List Token) (current : Token)
    (after : List Token) :
    ∃ passed, (⟨before, current, after⟩ : Cursor).Moved passed
      (passUntilResumption previous before current after) := by
  induction after generalizing previous before current with
  | nil => exact ⟨[], Moved.refl _⟩
  | cons next rest inductionHypothesis =>
    unfold passUntilResumption
    split
    · exact ⟨[], Moved.refl _⟩
    · obtain ⟨passed, moved⟩ := inductionHypothesis current (current :: before) next
      have first : (⟨before, current, next :: rest⟩ : Cursor).Moved [current]
          ⟨current :: before, next, rest⟩ := ⟨rfl, rfl⟩
      exact ⟨_, first.trans moved⟩

/-- So is recovery as a whole. -/
theorem exists_moved_synchronize (cursor : Cursor) :
    ∃ passed, cursor.Moved passed cursor.synchronize := by
  obtain ⟨first, advanced⟩ := cursor.exists_moved_advance
  obtain ⟨second, moved⟩ := exists_moved_passUntilResumption cursor.current cursor.advance.before
    cursor.advance.current cursor.advance.after
  exact ⟨first ++ second, advanced.trans moved⟩

end Cursor

/-! ### The way of a parser -/

/-- On the way between two states of a parser, some tokens were passed and some errors reported. -/
structure Progress.Walk (start : Progress) (passed : List Token) (reported : List SyntaxError)
    (reached : Progress) : Prop where
  moved : start.cursor.Moved passed reached.cursor
  errors : reached.errors = start.errors ++ reported

theorem Progress.Walk.refl (progress : Progress) : progress.Walk [] [] progress :=
  ⟨Cursor.Moved.refl _, (List.append_nil _).symm⟩

theorem Progress.Walk.trans {start middle reached : Progress} {first second : List Token}
    {earlier later : List SyntaxError} (begins : start.Walk first earlier middle)
    (continues : middle.Walk second later reached) :
    start.Walk (first ++ second) (earlier ++ later) reached :=
  ⟨begins.moved.trans continues.moved, by
    rw [continues.errors, begins.errors, List.append_assoc]⟩

namespace Parse

variable {α β : Type}

/-- From the given start, what the parser finds is related to the tokens it passes and the errors it
reports; or it gives up, and these are related to the token where it does. -/
def WalksFrom (start : Progress) (parser : Parse α)
    (found : α → List Token → List SyntaxError → Prop)
    (lost : List Token → Token → List SyntaxError → Prop) : Prop :=
  match parser start with
  | .ok value reached => ∃ passed reported,
    start.Walk passed reported reached ∧ found value passed reported
  | .error _ reached => ∃ passed reported,
    start.Walk passed reported reached ∧ lost passed reached.cursor.current reported

/-- From every start in a closed text, the parser walks so. -/
def Walks (parser : Parse α) (found : α → List Token → List SyntaxError → Prop)
    (lost : List Token → Token → List SyntaxError → Prop) : Prop :=
  ∀ start, start.cursor.Closed → WalksFrom start parser found lost

section Rules

variable {found other : α → List Token → List SyntaxError → Prop}
  {final : β → List Token → List SyntaxError → Prop}
  {lost worse : List Token → Token → List SyntaxError → Prop} {parser : Parse α}

/-- A walk with some outcome is one with every weaker outcome. -/
theorem WalksFrom.weaken {start : Progress} (walks : WalksFrom start parser found lost)
    (finds : ∀ value passed reported, found value passed reported → other value passed reported)
    (loses : ∀ passed stopped reported, lost passed stopped reported →
      worse passed stopped reported) :
    WalksFrom start parser other worse := by
  unfold WalksFrom at walks ⊢
  cases ending : parser start with
  | ok value reached =>
    rw [ending] at walks
    obtain ⟨passed, reported, walk, holds⟩ := walks
    exact ⟨passed, reported, walk, finds _ _ _ holds⟩
  | error error reached =>
    rw [ending] at walks
    obtain ⟨passed, reported, walk, holds⟩ := walks
    exact ⟨passed, reported, walk, loses _ _ _ holds⟩

theorem Walks.weaken (walks : Walks parser found lost)
    (finds : ∀ value passed reported, found value passed reported → other value passed reported)
    (loses : ∀ passed stopped reported, lost passed stopped reported →
      worse passed stopped reported) :
    Walks parser other worse :=
  fun start closed => (walks start closed).weaken finds loses

/-- Where the parser gives up does not matter. -/
theorem Walks.finding (walks : Walks parser found lost)
    (finds : ∀ value passed reported, found value passed reported → other value passed reported) :
    Walks parser other fun _ _ _ => True :=
  walks.weaken finds fun _ _ _ _ => trivial

theorem Walks.pure {value : α} (holds : found value [] []) :
    Walks (Pure.pure value : Parse α) found lost :=
  fun start _ => ⟨[], [], Progress.Walk.refl start, holds⟩

/-- Two parsers one after the other. -/
theorem WalksFrom.bind {next : α → Parse β} {start : Progress} (closed : start.cursor.Closed)
    (first : WalksFrom start parser found lost)
    (second : ∀ value front earlier, found value front earlier →
      Walks (next value)
        (fun result passed reported => final result (front ++ passed) (earlier ++ reported))
        (fun passed stopped reported => lost (front ++ passed) stopped (earlier ++ reported))) :
    WalksFrom start (parser >>= next) final lost := by
  unfold WalksFrom at first ⊢
  rw [Action.bind_apply]
  cases ending : parser start with
  | error error reached =>
    rw [ending] at first
    exact first
  | ok value middle =>
    rw [ending] at first
    obtain ⟨front, earlier, walk, holds⟩ := first
    have rest := second value front earlier holds middle (walk.moved.closed closed)
    unfold WalksFrom at rest
    dsimp only
    cases continued : next value middle with
    | ok result reached =>
      rw [continued] at rest
      obtain ⟨passed, reported, onward, concludes⟩ := rest
      exact ⟨_, _, walk.trans onward, concludes⟩
    | error error reached =>
      rw [continued] at rest
      obtain ⟨passed, reported, onward, concludes⟩ := rest
      exact ⟨_, _, walk.trans onward, concludes⟩

/-- Two parsers walk one after the other, with what the first one passed in front. -/
theorem Walks.bind {next : α → Parse β} (first : Walks parser found lost)
    (second : ∀ value front earlier, found value front earlier →
      Walks (next value)
        (fun result passed reported => final result (front ++ passed) (earlier ++ reported))
        (fun passed stopped reported => lost (front ++ passed) stopped (earlier ++ reported))) :
    Walks (parser >>= next) final lost :=
  fun start closed => (first start closed).bind closed second

/-! ### The steps of parsers -/

/-- Looking at the current token passes nothing. -/
theorem Walks.looking {next : Token → Parse α}
    (walks : ∀ start, start.cursor.Closed →
      WalksFrom start (next start.cursor.current) found lost) :
    Walks (current >>= next) found lost :=
  fun start closed => walks start closed

/-- Counting the tokens left passes nothing. -/
theorem Walks.counting {next : Nat → Parse α} (walks : ∀ bound, Walks (next bound) found lost) :
    Walks (remaining >>= next) found lost :=
  fun start closed => walks start.cursor.remaining start closed

/-- Choosing by the current token passes nothing. -/
theorem Walks.checking {kinds : List TokenKind} {next : Bool → Parse α}
    (walks : ∀ listed, Walks (next listed) found lost) : Walks (check kinds >>= next) found lost :=
  fun start closed => walks _ start closed

/-- Passing the current token, which does not end the text. -/
theorem WalksFrom.passing {start : Progress} {next : Parse α} (closed : start.cursor.Closed)
    (inside : start.cursor.current.kind ≠ .eof)
    (walks : Walks next
      (fun value passed reported => found value (start.cursor.current :: passed) reported)
      (fun passed stopped reported => lost (start.cursor.current :: passed) stopped reported)) :
    WalksFrom start (do let _ ← advance; next) found lost := by
  have passes : WalksFrom start advance
      (fun _ passed reported => passed = [start.cursor.current] ∧ reported = []) lost :=
    ⟨_, _, ⟨Cursor.moved_advance closed inside, (List.append_nil _).symm⟩, rfl, rfl⟩
  refine passes.bind closed fun _ front earlier same => ?_
  obtain ⟨rfl, rfl⟩ := same
  exact walks

/-- Looking for a token passes it or nothing. -/
theorem accept_walks {kinds : List TokenKind} (inside : .eof ∉ kinds) :
    Walks (accept kinds) (fun found passed reported => reported = [] ∧
      match found with
      | none => passed = []
      | some token => token.kind ∈ kinds ∧ passed = [token]) lost := by
  intro start closed
  by_cases listed : start.cursor.current.kind ∈ kinds
  · have stays : start.cursor.current.kind ≠ .eof := ne_of_mem_of_not_mem listed inside
    have taken : accept kinds start =
        .ok (some start.cursor.current) { start with cursor := start.cursor.advance } := by
      have looked : check kinds start = .ok true start := by simp [check, listed]
      rw [accept, Action.bind_of_ok looked]
      rfl
    unfold WalksFrom
    rw [taken]
    exact ⟨_, _, ⟨Cursor.moved_advance closed stays, (List.append_nil _).symm⟩, rfl, listed, rfl⟩
  · have refused : accept kinds start = .ok none start := by
      simp [accept, Action.bind_apply, check, listed]
    unfold WalksFrom
    rw [refused]
    exact ⟨[], [], Progress.Walk.refl start, rfl, rfl⟩

/-- Giving up passes nothing and reports one error at the token where it happens. -/
theorem fail_walks (message : String)
    (holds : ∀ stopped, lost [] stopped [⟨stopped, message⟩]) :
    Walks (fail message : Parse α) found lost :=
  fun _ _ => ⟨[], _, ⟨Cursor.Moved.refl _, rfl⟩, holds _⟩

theorem report_walks (token : Token) (message : String) :
    Walks (report token message)
      (fun _ passed reported => passed = [] ∧ reported = [⟨token, message⟩]) lost :=
  fun _ _ => ⟨[], _, ⟨Cursor.Moved.refl _, rfl⟩, rfl, rfl⟩

/-- An expected token is passed, or the parser gives up in front of the token that stands in its
place. -/
theorem expect_walks {kind : TokenKind} (message : String) (inside : kind ≠ .eof)
    (holds : ∀ stopped, lost [] stopped [⟨stopped, message⟩]) :
    Walks (expect kind message)
      (fun token passed reported => token.kind = kind ∧ passed = [token] ∧ reported = []) lost := by
  intro start closed
  by_cases listed : start.cursor.current.kind = kind
  · have taken : expect kind message start =
        .ok start.cursor.current { start with cursor := start.cursor.advance } := by
      simp [expect, Action.bind_apply, check, advance, listed]
    unfold WalksFrom
    rw [taken]
    exact ⟨_, _, ⟨Cursor.moved_advance closed (listed ▸ inside), (List.append_nil _).symm⟩, listed,
      rfl, rfl⟩
  · have refused : expect kind message start = fail message start := by
      simp [expect, Action.bind_apply, check, listed]
    unfold WalksFrom
    rw [refused]
    exact ⟨[], _, ⟨Cursor.Moved.refl _, rfl⟩, holds _⟩

/-- Moving the cursor forward reports nothing. -/
theorem move_walks {step : Cursor → Cursor}
    (moves : ∀ cursor : Cursor, ∃ passed, cursor.Moved passed (step cursor)) :
    Walks (move step) (fun _ _ reported => reported = []) lost := by
  intro start _
  obtain ⟨passed, moved⟩ := moves start.cursor
  exact ⟨passed, [], ⟨moved, (List.append_nil _).symm⟩, rfl⟩

theorem skipNewlines_walks :
    Walks skipNewlines (fun _ _ reported => reported = []) lost :=
  move_walks fun cursor =>
    Cursor.exists_moved_passWhile (· == .newline) cursor.before cursor.current cursor.after

/-- Recovery passes some more tokens behind a parser that gave up. -/
theorem recover_walks (walks : Walks parser found lost) :
    Walks (recover parser)
      (fun result passed reported => ∀ value, result = some value → found value passed reported)
      worse := by
  intro start closed
  have ending := walks start closed
  unfold WalksFrom recover at *
  cases shape : parser start with
  | ok value reached =>
    rw [shape] at ending
    obtain ⟨passed, reported, walk, holds⟩ := ending
    refine ⟨passed, reported, walk, fun other same => ?_⟩
    cases same
    exact holds
  | error error reached =>
    rw [shape] at ending
    obtain ⟨passed, reported, walk, _⟩ := ending
    obtain ⟨more, moved⟩ := reached.cursor.exists_moved_synchronize
    refine ⟨passed ++ more, reported, ⟨walk.moved.trans moved, walk.errors⟩, fun other same => ?_⟩
    cases same

end Rules

/-! ### Finding a value in given tokens -/

/-- Wherever the given tokens are ahead, with others behind them, the parser passes them, reports
nothing and finds the value. -/
def Takes (parser : Parse α) (passed rest : List Token) (value : α) : Prop :=
  ∀ start : Progress, start.cursor.ahead = passed ++ rest →
    ∃ reached, parser start = .ok value reached ∧ start.Walk passed [] reached

theorem Takes.pure (value : α) (rest : List Token) : Takes (Pure.pure value) [] rest value :=
  fun start _ => ⟨start, rfl, Progress.Walk.refl start⟩

/-- Two parsers take their tokens one after the other, each its own part. -/
theorem Takes.bind {parser : Parse α} {next : α → Parse β} {first second rest : List Token}
    {found : α} {value : β} (begins : Takes parser first (second ++ rest) found)
    (continues : Takes (next found) second rest value) :
    Takes (parser >>= next) (first ++ second) rest value := by
  intro start faces
  obtain ⟨middle, taken, walk⟩ := begins start (by rw [faces, List.append_assoc])
  have left : middle.cursor.ahead = second ++ rest :=
    walk.moved.ahead_eq (by rw [faces, List.append_assoc])
  obtain ⟨reached, ending, onward⟩ := continues middle left
  exact ⟨reached, by rw [Action.bind_of_ok taken, ending], walk.trans onward⟩

/-- Two parsers one after the other, of which the second passes nothing. -/
theorem Takes.bind_last {parser : Parse α} {next : α → Parse β} {passed rest : List Token}
    {found : α} {value : β} (begins : Takes parser passed rest found)
    (continues : Takes (next found) [] rest value) : Takes (parser >>= next) passed rest value := by
  rw [← List.append_nil passed]
  exact begins.bind continues

theorem Takes.looking {next : Token → Parse α} {token : Token} {passed rest others : List Token}
    {value : α} (front : passed ++ rest = token :: others)
    (takes : Takes (next token) passed rest value) :
    Takes (current >>= next) passed rest value := by
  intro start faces
  have same : start.cursor.current = token := (List.cons.inj (faces.trans front)).1
  obtain ⟨reached, ending, walk⟩ := takes start faces
  exact ⟨reached, by rw [← ending, ← same]; rfl, walk⟩

theorem Takes.counting {next : Nat → Parse α} {passed rest : List Token} {value : α}
    (takes : Takes (next (passed ++ rest).length) passed rest value) :
    Takes (remaining >>= next) passed rest value := by
  intro start faces
  have count : start.cursor.remaining = (passed ++ rest).length := by rw [← faces]; rfl
  obtain ⟨reached, ending, walk⟩ := takes start faces
  exact ⟨reached, by rw [← ending, ← count]; rfl, walk⟩

/-- Advancing takes the token at the cursor. -/
theorem advance_takes {token : Token} {rest : List Token} (inside : token.kind ≠ .eof)
    (more : rest ≠ []) : Takes advance [token] rest token := by
  intro start faces
  obtain ⟨next, others, rfl⟩ := List.exists_cons_of_ne_nil more
  obtain ⟨⟨before, current, after⟩, errors, failed, failed_eq⟩ := start
  cases faces
  refine ⟨⟨⟨current :: before, next, others⟩, errors, failed, failed_eq⟩, ?_, ⟨rfl, rfl⟩,
    (List.append_nil _).symm⟩
  simp [advance, Cursor.advance, inside]

theorem accept_takes {kinds : List TokenKind} {token : Token} {rest : List Token}
    (inside : .eof ∉ kinds) (listed : token.kind ∈ kinds) (more : rest ≠ []) :
    Takes (accept kinds) [token] rest (some token) := by
  intro start faces
  have same : start.cursor.current = token := (List.cons.inj faces).1
  obtain ⟨reached, ending, walk⟩ :=
    advance_takes (ne_of_mem_of_not_mem listed inside) more start faces
  have looked : check kinds start = .ok true start := by simp [check, same, listed]
  refine ⟨reached, ?_, walk⟩
  rw [accept, Action.bind_of_ok looked, if_pos rfl, Action.bind_of_ok ending]
  rfl

theorem accept_leaves {kinds : List TokenKind} {next : Token} {others : List Token}
    (unlisted : next.kind ∉ kinds) : Takes (accept kinds) [] (next :: others) none := by
  intro start faces
  have same : start.cursor.current = next := (List.cons.inj faces).1
  refine ⟨start, ?_, Progress.Walk.refl start⟩
  simp [accept, Action.bind_apply, check, same, unlisted]

theorem expect_takes {kind : TokenKind} {message : String} {token : Token} {rest : List Token}
    (inside : kind ≠ .eof) (expected : token.kind = kind) (more : rest ≠ []) :
    Takes (expect kind message) [token] rest token := by
  intro start faces
  have same : start.cursor.current = token := (List.cons.inj faces).1
  obtain ⟨reached, ending, walk⟩ := advance_takes (expected ▸ inside) more start faces
  refine ⟨reached, ?_, walk⟩
  simp [expect, Action.bind_apply, check, same, expected, ending]

end Parse

end LineScript
