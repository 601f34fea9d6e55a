/-
Module: LineScript.Proofs.LineRecovery
Purpose: In a script without nested statements, the errors are exactly on the broken lines.
Trusted boundary: none
Main exports: BodyLine, StraightScript, Judged, Tells, runFrom_tells, errors_on_broken_lines
-/
import LineScript.Proofs.GrammarCompleteness
import LineScript.Proofs.LineKeeping
import LineScript.Proofs.ParsedTree

/-!
A script is straight if each line of its body is blank or tries to be a statement of one line, and
has no token in its middle at which parsing would resume. Wherever a line breaks off, parsing
resumes at the next line: what is left of the line has nothing to resume at, and a newline that was
itself the bad token is passed with nothing behind it. So every line is judged by itself, and the
errors tell exactly which lines are broken.
-/

namespace LineScript

open Grammar Parse

/-- The statements of one line. -/
def Grammar.lineStatement : Phrase :=
  .any [
    .all [.word .printWord, .word .colon, .part .expression, .word .newline],
    .all [.word .scanWord, .word .colon, .list (.word .identifier), .word .newline],
    .all [.part .expression, .word .newline]]

/-- A line in the body of a straight script, with the newline that ends it. -/
structure BodyLine where
  number : Nat
  tokens : List Token
  newline : Token
  breaks : newline.kind = .newline
  inside : ∀ token ∈ tokens, ¬ token.kind.EndsLine
  starts : ∀ token ∈ tokens.head?,
    token.kind ∉ [.ifWord, .forWord, .repeatWord, .endWord, .declareWord]
  continues : ∀ token ∈ tokens.tail,
    token.kind ∉ [.whenWord, .ifWord, .forWord, .declareWord, .startWord, .printWord]
  numbered : ∀ token ∈ tokens ++ [newline], token.position.line = number

namespace BodyLine

/-- The tokens of the line with its newline. -/
def whole (line : BodyLine) : List Token :=
  line.tokens ++ [line.newline]

/-- The line holds something, but no statement. -/
def Broken (line : BodyLine) : Prop :=
  line.tokens ≠ [] ∧ ¬ Derives lineStatement (line.whole.map Token.kind)

end BodyLine

/-- A script whose body is made of such lines. -/
structure StraightScript where
  header : List Token
  body : List BodyLine
  footer : List Token
  opens : Derives
    (.all [.blank, .word .scriptWord, .word .areaWord, .word .newline,
      .blank, .word .startWord, .word .scriptWord, .word .newline]) (header.map Token.kind)
  closes : Derives (.all [.word .endWord, .word .scriptWord, .blank, .word .eof])
    (footer.map Token.kind)

/-- All tokens of the script. -/
def StraightScript.tokens (script : StraightScript) : List Token :=
  script.header ++ (script.body.flatMap BodyLine.whole ++ script.footer)

/-! ### Resuming at the next line -/

namespace Cursor

/-- The newline is passed, unless there is a token to resume at in front of it. -/
theorem exists_moved_passUntilResumption_line {previous newline : Token}
    {others after : List Token} (within : previous.kind ≠ .newline)
    (breaks : newline.kind = .newline) (inside : ∀ token ∈ others, ¬ token.kind.EndsLine)
    (more : after ≠ []) {before : List Token} {current : Token} {rest : List Token}
    (faces : current :: rest = others ++ newline :: after) :
    ∃ passed, (⟨before, current, rest⟩ : Cursor).Moved passed
        (passUntilResumption previous before current rest) ∧
      (passed = others ++ [newline] ∨
        ∃ word left, others = passed ++ word :: left ∧ isResumption word.kind = true) := by
  induction others generalizing previous before current rest with
  | nil =>
    -- At the line break the walk takes it and stops behind it.
    obtain ⟨rfl, rfl⟩ := List.cons.inj faces
    obtain ⟨next, rest, rfl⟩ := List.exists_cons_of_ne_nil more
    rw [passUntilResumption, if_neg (by simp [breaks, within, isResumption]),
      passUntilResumption_behind_newline breaks]
    exact ⟨[current], ⟨rfl, rfl⟩, .inl rfl⟩
  | cons token others inductionHypothesis =>
    rw [List.cons_append] at faces
    obtain ⟨rfl, rfl⟩ := List.cons.inj faces
    obtain ⟨next, rest, front⟩ := List.exists_cons_of_ne_nil
      (List.append_ne_nil_of_right_ne_nil others (List.cons_ne_nil newline after))
    have inLine := not_or.mp (inside current List.mem_cons_self)
    rw [front, passUntilResumption]
    -- Inside the line it stops at the first word that can begin a statement, or goes on.
    by_cases resumes : isResumption current.kind = true
    · rw [if_pos (.inr (.inr resumes))]
      exact ⟨[], Moved.refl _, .inr ⟨current, others, rfl, resumes⟩⟩
    · rw [if_neg (by simp [inLine.2, within, resumes])]
      have first : (⟨before, current, next :: rest⟩ : Cursor).Moved [current]
          ⟨current :: before, next, rest⟩ := ⟨rfl, rfl⟩
      obtain ⟨passed, moved, ends⟩ := inductionHypothesis inLine.1
        (fun token member => inside token (List.mem_cons_of_mem current member)) front.symm
      refine ⟨_, first.trans moved, ?_⟩
      rcases ends with rfl | ⟨word, left, rfl, resumption⟩
      · exact .inl rfl
      · exact .inr ⟨word, left, rfl, resumption⟩

/-- From any token of a line, recovery goes to the start of the next line, unless there is a token
to resume at on the line behind it. -/
theorem exists_moved_synchronize_line {cursor : Cursor} {newline : Token} {front after : List Token}
    (faces : cursor.ahead = front ++ newline :: after) (breaks : newline.kind = .newline)
    (inside : ∀ token ∈ front, ¬ token.kind.EndsLine) (more : after ≠ []) :
    ∃ passed, cursor.Moved passed cursor.synchronize ∧
      (passed = front ++ [newline] ∨
        ∃ between word left, passed = cursor.current :: between ∧ front = passed ++ word :: left ∧
          isResumption word.kind = true) := by
  obtain ⟨before, current, rest⟩ := cursor
  cases front with
  | nil =>
    obtain ⟨rfl, rfl⟩ := List.cons.inj faces
    obtain ⟨next, rest, rfl⟩ := List.exists_cons_of_ne_nil more
    have isNewline : current.kind = .newline := breaks
    have notLast : current.kind ≠ .eof := by simp [isNewline]
    simp only [synchronize, advance, if_neg notLast, passUntilResumption_behind_newline breaks]
    exact ⟨[current], ⟨rfl, rfl⟩, .inl rfl⟩
  | cons stopped others =>
    rw [List.cons_append] at faces
    obtain ⟨rfl, rfl⟩ := List.cons.inj faces
    obtain ⟨next, rest, behind⟩ := List.exists_cons_of_ne_nil
      (List.append_ne_nil_of_right_ne_nil others (List.cons_ne_nil newline after))
    have inLine := not_or.mp (inside current List.mem_cons_self)
    have first : (⟨before, current, next :: rest⟩ : Cursor).Moved [current]
        ⟨current :: before, next, rest⟩ := ⟨rfl, rfl⟩
    obtain ⟨passed, moved, ends⟩ := exists_moved_passUntilResumption_line inLine.1 breaks
      (fun token member => inside token (List.mem_cons_of_mem current member)) more behind.symm
    simp only [behind, synchronize, advance, if_neg inLine.2]
    refine ⟨_, first.trans moved, ?_⟩
    rcases ends with rfl | ⟨word, left, rfl, resumption⟩
    · exact .inl rfl
    · exact .inr ⟨passed, word, left, rfl, rfl, resumption⟩

/-- With nothing to resume at, recovery goes to the start of the next line. -/
theorem moved_synchronize {cursor : Cursor} {newline : Token} {front after : List Token}
    (faces : cursor.ahead = front ++ newline :: after) (breaks : newline.kind = .newline)
    (inside : ∀ token ∈ front, ¬ token.kind.EndsLine)
    (continues : ∀ token ∈ front.tail, isResumption token.kind = false) (more : after ≠ []) :
    cursor.Moved (front ++ [newline]) cursor.synchronize := by
  obtain ⟨passed, moved, rfl | ⟨between, word, left, rfl, rfl, resumption⟩⟩ :=
    exists_moved_synchronize_line faces breaks inside more
  · exact moved
  · have goesOn := continues word (by simp)
    rw [resumption] at goesOn
    cases goesOn

end Cursor

/-! ### A line by itself -/

/-- Tokens of a line that were passed are the front of the line. -/
theorem line_front {passed line : List Token} {newline stopped : Token} {rest after : List Token}
    (inside : ∀ token ∈ passed, ¬ token.kind.EndsLine) (breaks : newline.kind = .newline)
    (same : passed ++ stopped :: rest = line ++ newline :: after) :
    ∃ left, line = passed ++ left ∧ stopped :: rest = left ++ newline :: after := by
  induction passed generalizing line with
  | nil => exact ⟨line, rfl, same⟩
  | cons token passed inductionHypothesis =>
    cases line with
    | nil =>
      obtain ⟨rfl, _⟩ := List.cons.inj same
      exact absurd (.inl breaks) (inside token List.mem_cons_self)
    | cons other line =>
      obtain ⟨rfl, behind⟩ := List.cons.inj same
      obtain ⟨left, rfl, remains⟩ := inductionHypothesis
        (fun other member => inside other (List.mem_cons_of_mem token member)) behind
      exact ⟨left, rfl, remains⟩

/-- The token behind them is on the line too, if only as its newline. -/
theorem mem_line_of_passed {passed line : List Token} {newline stopped : Token}
    {rest after : List Token} (inside : ∀ token ∈ passed, ¬ token.kind.EndsLine)
    (breaks : newline.kind = .newline)
    (same : passed ++ stopped :: rest = line ++ newline :: after) :
    ∀ token ∈ passed ++ [stopped], token ∈ line ++ [newline] := by
  obtain ⟨left, rfl, remains⟩ := line_front inside breaks same
  intro token member
  rw [List.append_assoc]
  rcases List.mem_append.mp member with inPassed | isStopped
  · exact List.mem_append_left _ inPassed
  · apply List.mem_append_right
    rw [List.mem_singleton.mp isStopped]
    cases left with
    | nil =>
      obtain ⟨same, _⟩ := List.cons.inj remains
      simp [same]
    | cons first others =>
      obtain ⟨same, _⟩ := List.cons.inj remains
      simp [same]

/-- Tokens of a line are no blank lines. -/
theorem dropBlank_inside {line : List Token} (inside : ∀ token ∈ line, ¬ token.kind.EndsLine)
    (holds : line ≠ []) (after : List Token) : dropBlank (line ++ after) = line ++ after := by
  obtain ⟨first, rest, rfl⟩ := List.exists_cons_of_ne_nil holds
  exact dropBlank_other (not_or.mp (inside first List.mem_cons_self)).1 (rest ++ after)

/-- The first newline ends the line, so what was passed up to a newline is the whole line. -/
theorem line_unique {passed line : List Token} {first newline : Token} {rest after : List Token}
    (passedInside : ∀ token ∈ passed, ¬ token.kind.EndsLine)
    (lineInside : ∀ token ∈ line, ¬ token.kind.EndsLine) (firstBreaks : first.kind = .newline)
    (breaks : newline.kind = .newline) (same : passed ++ first :: rest = line ++ newline :: after) :
    passed = line ∧ first = newline := by
  obtain ⟨left, rfl, remains⟩ := line_front passedInside breaks same
  cases left with
  | nil => exact ⟨(List.append_nil _).symm, (List.cons.inj remains).1⟩
  | cons token left =>
    obtain ⟨rfl, _⟩ := List.cons.inj remains
    exact absurd (.inl firstBreaks) (lineInside first (by simp))

namespace Stmt

theorem expressionLine_sound : Sound expressionLine (.all [.part .expression, .word .newline]) :=
  Expr.parse_sound.bind fun _ => (endLine_sound _).bind fun _ => Sound.pure _

theorem Sound.lineStatement {parser : Parse Stmt} {phrases : List Phrase} {phrase : Phrase}
    (production : Grammar.lineStatement = .any phrases) (chosen : phrase ∈ phrases)
    (sound : Sound parser phrase) : Sound parser Grammar.lineStatement := by
  apply sound.weaken
  intro start value rest reads
  rw [production, reads_any]
  exact ⟨phrase, chosen, reads⟩

/-- What starts like a statement of one line is parsed as one. -/
theorem exists_lineParser (item : Parse Stmt) {start : Progress}
    (starts : start.cursor.current.kind ∉
      [.ifWord, .forWord, .repeatWord, .endWord, .declareWord]) :
    ∃ parser, statementOver item start = parser start ∧ ClosesLine parser ∧
      Sound parser lineStatement := by
  have chosen : statementOver item start = printing start ∨
      statementOver item start = scanning start ∨
      statementOver item start = expressionLine start := by
    have looked : Parse.current start = .ok start.cursor.current start := rfl
    rw [statementOver, Action.bind_of_ok looked]
    generalize start.cursor.current.kind = kind at starts
    split
    case h_1 | h_4 | h_5 | h_6 => simp at starts
    case h_2 => exact .inl rfl
    case h_3 => exact .inr (.inl rfl)
    case h_7 => exact .inr (.inr rfl)
  rcases chosen with same | same | same
  · exact ⟨printing, same, printing_closesLine, Sound.lineStatement rfl (by simp) printing_sound⟩
  · exact ⟨scanning, same, scanning_closesLine, Sound.lineStatement rfl (by simp) scanning_sound⟩
  · exact ⟨expressionLine, same, expressionLine_closesLine,
      Sound.lineStatement rfl (by simp) expressionLine_sound⟩

theorem lineStatement_passes (item : Parse Stmt) {start rest : List TokenKind}
    (reads : Reads lineStatement start rest) : Passes (statementOver item) start rest := by
  rw [lineStatement, reads_any] at reads
  obtain ⟨phrase, chosen, reads⟩ := reads
  simp only [List.mem_cons, List.not_mem_nil, or_false] at chosen
  rcases chosen with rfl | rfl | rfl
  · obtain ⟨others, word, _⟩ := reads_all_cons.mp reads
    obtain rfl := reads_word.mp word
    apply Accepts.looking
    intro token sameKind
    simp only [sameKind]
    exact printing_passes reads
  · obtain ⟨others, word, _⟩ := reads_all_cons.mp reads
    obtain rfl := reads_word.mp word
    apply Accepts.looking
    intro token sameKind
    simp only [sameKind]
    exact scanning_passes reads
  · exact expressionLine_passes reads

end Stmt

namespace Cursor

/-- In front of a token that is no newline, no blank line is passed. -/
theorem ahead_skipNewlines_of_other {cursor : Cursor} (inLine : cursor.current.kind ≠ .newline) :
    cursor.skipNewlines.ahead = cursor.ahead := by
  have stays : dropBlank cursor.ahead = cursor.ahead := dropBlank_other inLine cursor.after
  have front : dropBlank cursor.ahead ≠ [] := by
    rw [stays]
    exact List.cons_ne_nil _ _
  rw [ahead_skipNewlines front, stays]

theorem closed_of_endsOnce {cursor : Cursor} (ended : EndsOnce cursor.kinds) : cursor.Closed := by
  obtain ⟨body, whole, _⟩ := ended
  have last : (cursor.ahead.map Token.kind).getLast? = some .eof := by
    rw [show cursor.ahead.map Token.kind = body ++ [.eof] from whole, List.getLast?_concat]
  rw [List.getLast?_map, Option.map_eq_some_iff] at last
  obtain ⟨token, ending, kind⟩ := last
  exact ⟨token, ending, kind⟩

end Cursor

namespace BodyLine

variable {line : BodyLine} {start : Progress} {after : List Token}

theorem kinds_of_faces (faces : start.cursor.ahead = line.whole ++ after) :
    start.cursor.kinds = line.whole.map Token.kind ++ after.map Token.kind := by
  rw [← List.map_append, ← faces]
  rfl

/-- The first token of the line is the current one. -/
theorem current_starts (holds : line.tokens ≠ [])
    (faces : start.cursor.ahead = line.whole ++ after) :
    start.cursor.current.kind ∉ [.ifWord, .forWord, .repeatWord, .endWord, .declareWord] ∧
      ¬ start.cursor.current.kind.EndsLine := by
  obtain ⟨first, rest, shape⟩ := List.exists_cons_of_ne_nil holds
  rw [whole, shape] at faces
  obtain ⟨same, _⟩ := List.cons.inj faces
  rw [same]
  exact ⟨line.starts first (by simp [shape]), line.inside first (by simp [shape])⟩

/-- A statement that is found on the line without an error is all of the line. -/
theorem derives_of_found {parser : Parse Stmt} {value : Stmt} {reached : Progress}
    (sound : Sound parser lineStatement) (ended : EndsOnce start.cursor.kinds)
    (faces : start.cursor.ahead = line.whole ++ after) (found : parser start = .ok value reached)
    (walk : start.Walk line.whole [] reached) :
    Derives lineStatement (line.whole.map Token.kind) := by
  have quiet : reached.errors = start.errors := by
    rw [walk.errors, List.append_nil]
  have left : reached.cursor.ahead = after := walk.moved.ahead_eq faces
  obtain ⟨⟨kinds, derivation, whole⟩, _⟩ := (sound.ok found).2 (by rw [quiet]) ended
  have rest : reached.cursor.kinds = after.map Token.kind := by
    rw [← left]
    rfl
  rw [kinds_of_faces faces, rest] at whole
  exact List.append_cancel_right whole ▸ derivation

/-- Where the parser gives up on the line, it resumes at the next line. -/
theorem moved_synchronize {passed : List Token} {reached : Progress}
    {reported : List SyntaxError} (faces : start.cursor.ahead = line.whole ++ after)
    (more : after ≠ []) (walk : start.Walk passed reported reached)
    (inside : ∀ token ∈ passed, ¬ token.kind.EndsLine) :
    start.cursor.Moved line.whole reached.cursor.synchronize ∧
      ∀ token ∈ passed ++ [reached.cursor.current], token ∈ line.whole := by
  have same : passed ++ reached.cursor.current :: reached.cursor.after =
      line.tokens ++ line.newline :: after := by
    rw [whole, List.append_assoc, List.singleton_append] at faces
    rw [← faces, walk.moved.ahead]
    rfl
  obtain ⟨left, split, remains⟩ := line_front inside line.breaks same
  have leftInside : ∀ token ∈ left, ¬ token.kind.EndsLine := by
    intro token member
    apply line.inside
    rw [split]
    exact List.mem_append_right passed member
  have leftContinues : ∀ token ∈ left.tail, Cursor.isResumption token.kind = false := by
    intro token member
    have listed : token ∈ line.tokens.tail := by
      rw [split]
      cases passed with
      | nil => exact member
      | cons first others => exact List.mem_append_right others (List.mem_of_mem_tail member)
    simpa [Cursor.isResumption] using line.continues token listed
  have synchronized := Cursor.moved_synchronize remains line.breaks leftInside leftContinues more
  refine ⟨?_, mem_line_of_passed inside line.breaks same⟩
  rw [whole, split, List.append_assoc]
  exact walk.moved.trans synchronized

/-- The errors tell whether the line is broken, and are on the line. -/
structure Judged (line : BodyLine) (reported : List SyntaxError) : Prop where
  broken : reported ≠ [] ↔ line.Broken
  placed : ∀ error ∈ reported, error.token ∈ line.whole

theorem judged_blank (blank : line.tokens = []) : line.Judged [] where
  broken := by simp [Broken, blank]
  placed := by simp

section Parser

variable {parser : Parse Stmt} {reached : Progress} (holds : line.tokens ≠ [])
  (accepts : Derives lineStatement (line.whole.map Token.kind) →
    ∃ value reached, parser start = .ok value reached ∧ reached.errors = start.errors)

include holds accepts

/-- A statement that was found on the line has errors exactly if the line is broken. -/
theorem judged_of_found {value : Stmt} {passed : List Token} {reported : List SyntaxError}
    {front : List Token} {newline : Token} (sound : Sound parser lineStatement)
    (ended : EndsOnce start.cursor.kinds) (faces : start.cursor.ahead = line.whole ++ after)
    (found : parser start = .ok value reached) (walk : start.Walk passed reported reached)
    (shape : passed = front ++ [newline]) (breaks : newline.kind = .newline)
    (onLine : OnLine front reported passed) :
    start.Walk line.whole reported reached ∧ line.Judged reported := by
  subst shape
  have split : front ++ newline :: reached.cursor.ahead = line.tokens ++ line.newline :: after := by
    have facing := faces
    rw [walk.moved.ahead] at facing
    simpa [whole] using facing
  obtain ⟨rfl, rfl⟩ := line_unique onLine.inside line.inside breaks line.breaks split
  refine ⟨walk, ⟨fun reports => ⟨holds, fun derivation => ?_⟩, ?_⟩, onLine.placed⟩
  · obtain ⟨_, _, foundToo, quiet⟩ := accepts derivation
    cases found.symm.trans foundToo
    rw [walk.errors] at quiet
    exact reports (List.append_right_eq_self.mp quiet)
  · rintro ⟨_, broken⟩ rfl
    exact broken (derives_of_found sound ended faces found walk)

/-- A line on which the parser gave up is broken. -/
theorem judged_of_lost {error : SyntaxError} {passed : List Token} {reported : List SyntaxError}
    (faces : start.cursor.ahead = line.whole ++ after) (more : after ≠ [])
    (lost : parser start = .error error reached) (walk : start.Walk passed reported reached)
    (stranded : Stranded passed reached.cursor.current reported) :
    start.Walk line.whole reported { reached with cursor := reached.cursor.synchronize } ∧
      line.Judged reported := by
  obtain ⟨reports, onLine⟩ := stranded
  obtain ⟨moved, places⟩ := moved_synchronize faces more walk onLine.inside
  refine ⟨⟨moved, walk.errors⟩, ⟨fun _ => ⟨holds, fun derivation => ?_⟩, fun _ => reports⟩, ?_⟩
  · obtain ⟨_, _, found, _⟩ := accepts derivation
    cases lost.symm.trans found
  · intro error member
    exact places error.token (onLine.placed error member)

end Parser

/-- One round over a line that is not blank. The line is passed to its end in any case, and
judged. -/
theorem recover_line (depth : Nat) (holds : line.tokens ≠ []) (ended : EndsOnce start.cursor.kinds)
    (faces : start.cursor.ahead = line.whole ++ after) (more : after ≠ []) :
    ∃ found reached reported, recover (Stmt.statement (depth + 1)) start = .ok found reached ∧
      start.Walk line.whole reported reached ∧ line.Judged reported := by
  let item := Stmt.statement depth
  obtain ⟨parser, same, closes, sound⟩ :=
    Stmt.exists_lineParser item (current_starts holds faces).1
  have accepts : Derives lineStatement (line.whole.map Token.kind) →
      ∃ value reached, parser start = .ok value reached ∧ reached.errors = start.errors := by
    intro derivation
    have reads : Reads lineStatement start.cursor.kinds (after.map Token.kind) :=
      ⟨_, derivation, kinds_of_faces faces⟩
    obtain ⟨value, reached, found, quiet, _⟩ :=
      Stmt.lineStatement_passes item reads start rfl ended
    exact ⟨value, reached, same ▸ found, quiet⟩
  have parsed : Stmt.statement (depth + 1) start = parser start := same
  have walks := closes start (Cursor.closed_of_endsOnce ended)
  unfold WalksFrom at walks
  cases ending : parser start with
  | ok value reached =>
    rw [ending] at walks
    obtain ⟨passed, reported, walk, front, newline, shape, breaks, onLine⟩ := walks
    exact ⟨some value, reached, reported, by simp only [recover, parsed, ending],
      judged_of_found holds accepts sound ended faces ending walk shape breaks onLine⟩
  | error error reached =>
    rw [ending] at walks
    obtain ⟨passed, reported, walk, stranded⟩ := walks
    exact ⟨none, _, reported, by simp only [recover, parsed, ending],
      judged_of_lost holds accepts faces more ending walk stranded⟩

end BodyLine

/-! ### The lines of a body -/

theorem endsOnce_append {front rest : List TokenKind} (inside : .eof ∉ front)
    (ended : EndsOnce rest) : EndsOnce (front ++ rest) := by
  obtain ⟨body, rfl, once⟩ := ended
  refine ⟨front ++ body, (List.append_assoc _ _ _).symm, ?_⟩
  simp [inside, once]

theorem endsOnce_of_reads_blank {start rest : List TokenKind} (reads : Reads .blank start rest)
    (ended : EndsOnce rest) : EndsOnce start := by
  refine Reads.many_rec (motive := EndsOnce) ended ?_ reads
  intro kinds middle head _ middleEnded
  rw [reads_word.mp head, EndsOnce.cons_iff (by decide)]
  exact middleEnded

/-- The tokens of a body with the footer behind it. -/
def bodyAhead (body : List BodyLine) (footer : List Token) : List Token :=
  body.flatMap BodyLine.whole ++ footer

section Body

variable {footer : List Token}
  (closes : Derives (.all [.word .endWord, .word .scriptWord, .blank, .word .eof])
    (footer.map Token.kind))

theorem bodyAhead_cons (line : BodyLine) (body : List BodyLine) :
    bodyAhead (line :: body) footer = line.whole ++ bodyAhead body footer := by
  simp [bodyAhead]

include closes

theorem footer_begins : ∃ first second others, footer = first :: second :: others ∧
    first.kind = .endWord ∧ second.kind = .scriptWord := by
  have reads := derives_iff_reads_nil.mp closes
  simp only [reads_all_cons, reads_word] at reads
  obtain ⟨_, begins, _, rfl, _⟩ := reads
  obtain ⟨first, rest, rfl, opens, others⟩ := List.map_eq_cons_iff.mp begins
  obtain ⟨second, rest, rfl, names, _⟩ := List.map_eq_cons_iff.mp others
  exact ⟨first, second, rest, rfl, opens, names⟩

theorem footer_endsOnce : EndsOnce (footer.map Token.kind) := by
  have reads := derives_iff_reads_nil.mp closes
  simp only [reads_all_cons, reads_all_nil, reads_word] at reads
  obtain ⟨_, begins, _, rfl, middle, blanks, _, rfl, rfl⟩ := reads
  rw [begins, EndsOnce.cons_iff (by decide), EndsOnce.cons_iff (by decide)]
  exact endsOnce_of_reads_blank blanks (EndsOnce.eof_cons_iff.mpr rfl)

theorem bodyAhead_endsOnce (body : List BodyLine) :
    EndsOnce ((bodyAhead body footer).map Token.kind) := by
  induction body with
  | nil => exact footer_endsOnce closes
  | cons line body inductionHypothesis =>
    rw [bodyAhead_cons, List.map_append]
    apply endsOnce_append _ inductionHypothesis
    intro listed
    obtain ⟨token, member, last⟩ := List.mem_map.mp listed
    rcases List.mem_append.mp member with inTokens | isNewline
    · exact line.inside token inTokens (.inr last)
    · rw [List.mem_singleton.mp isNewline, line.breaks] at last
      cases last

theorem bodyAhead_ne_nil (body : List BodyLine) : bodyAhead body footer ≠ [] := by
  obtain ⟨first, second, others, rfl, _⟩ := footer_begins closes
  simp [bodyAhead]

omit closes in
theorem dropBlank_blank {line : BodyLine} (blank : line.tokens = []) (body : List BodyLine) :
    dropBlank (bodyAhead (line :: body) footer) = dropBlank (bodyAhead body footer) := by
  rw [bodyAhead_cons, BodyLine.whole, blank]
  exact dropBlank_newline line.breaks _

omit closes in
theorem dropBlank_line {line : BodyLine} (holds : line.tokens ≠ []) (body : List BodyLine) :
    dropBlank (bodyAhead (line :: body) footer) = line.whole ++ bodyAhead body footer := by
  rw [bodyAhead_cons, BodyLine.whole, List.append_assoc]
  exact dropBlank_inside line.inside holds _

theorem dropBlank_footer : dropBlank footer = footer := by
  obtain ⟨first, second, others, rfl, opens, _⟩ := footer_begins closes
  exact dropBlank_other (by simp [opens]) _

/-- No declaration stands at the front of a body. -/
theorem dropBlank_bodyAhead (body : List BodyLine) :
    ∃ first rest, dropBlank (bodyAhead body footer) = first :: rest ∧ first.kind ≠ .declareWord ∧
      first.kind ≠ .newline := by
  induction body with
  | nil =>
    obtain ⟨first, second, others, shape, opens, _⟩ := footer_begins closes
    exact ⟨first, second :: others, (dropBlank_footer closes).trans shape, by simp [opens],
      by simp [opens]⟩
  | cons line body inductionHypothesis =>
    by_cases blank : line.tokens = []
    · rwa [dropBlank_blank blank]
    · obtain ⟨first, rest, shape⟩ := List.exists_cons_of_ne_nil blank
      have starts := line.starts first (by simp [shape])
      have inLine := not_or.mp (line.inside first (by simp [shape]))
      refine ⟨first, rest ++ [line.newline] ++ bodyAhead body footer, ?_, by simp_all, inLine.1⟩
      rw [dropBlank_line blank, BodyLine.whole, shape]
      rfl

/-- The errors are exactly on the broken lines. -/
def Tells (reported : List SyntaxError) (body : List BodyLine) : Prop :=
  ∀ number, (∃ error ∈ reported, error.token.position.line = number) ↔
    ∃ line ∈ body, line.Broken ∧ line.number = number

omit closes in
theorem Tells.cons {line : BodyLine} {body : List BodyLine} {earlier later : List SyntaxError}
    (judged : line.Judged earlier) (tells : Tells later body) :
    Tells (earlier ++ later) (line :: body) := by
  intro number
  constructor
  · rintro ⟨error, member, stands⟩
    rcases List.mem_append.mp member with here | there
    · have broken := judged.broken.mp (List.ne_nil_of_mem here)
      have sameLine := line.numbered error.token (judged.placed error here)
      exact ⟨line, List.mem_cons_self, broken, sameLine.symm.trans stands⟩
    · obtain ⟨other, among, broken, numbered⟩ := (tells number).mp ⟨error, there, stands⟩
      exact ⟨other, List.mem_cons_of_mem line among, broken, numbered⟩
  · rintro ⟨other, among, broken, numbered⟩
    rcases List.mem_cons.mp among with rfl | behind
    · obtain ⟨error, member⟩ := List.exists_mem_of_ne_nil _ (judged.broken.mpr broken)
      have sameLine := other.numbered error.token (judged.placed error member)
      exact ⟨error, List.mem_append_left later member, sameLine.trans numbered⟩
    · obtain ⟨error, member, stands⟩ := (tells number).mpr ⟨other, behind, broken, numbered⟩
      exact ⟨error, List.mem_append_right earlier member, stands⟩

theorem endsAt_footer {cursor : Cursor} (faces : cursor.ahead = footer) :
    Stmt.endsAt .topLevel cursor = true := by
  obtain ⟨first, second, others, rfl, opens, names⟩ := footer_begins closes
  obtain ⟨before, current, after⟩ := cursor
  obtain ⟨rfl, rfl⟩ := List.cons.inj faces
  dsimp only at opens
  simp [Stmt.endsAt, Cursor.peek, opens, names]

omit closes in
/-- A run of statements does not end at the start of a line that is not blank. -/
theorem endsAt_line {line : BodyLine} {start : Progress} {after : List Token}
    (holds : line.tokens ≠ []) (faces : start.cursor.ahead = line.whole ++ after) :
    Stmt.endsAt .topLevel start.cursor = false ∧ start.cursor.current.kind ≠ .endWord := by
  obtain ⟨starts, inLine⟩ := line.current_starts holds faces
  have notEnd : start.cursor.current.kind ≠ .endWord := by simp_all
  have notLast : start.cursor.current.kind ≠ .eof := (not_or.mp inLine).2
  refine ⟨?_, notEnd⟩
  unfold Stmt.endsAt
  split <;> simp_all

/-- One round over a line that is not blank, with the blank lines behind it. -/
theorem runFrom_line (depth : Nat) {line : BodyLine} {body : List BodyLine} {start : Progress}
    (holds : line.tokens ≠ [])
    (faces : start.cursor.ahead = line.whole ++ bodyAhead body footer) :
    ∃ (found : Option Stmt) (next : Progress) (reported : List SyntaxError),
      (∀ bound, Stmt.runFrom .topLevel (Stmt.statement (depth + 1)) (bound + 1) start =
        (do
          let rest ← Stmt.runFrom .topLevel (Stmt.statement (depth + 1)) bound
          return found.toList ++ rest) next) ∧
      next.cursor.ahead = dropBlank (bodyAhead body footer) ∧
      next.errors = start.errors ++ reported ∧ line.Judged reported := by
  have ended : EndsOnce start.cursor.kinds := by
    have whole := bodyAhead_endsOnce closes (line :: body)
    rw [bodyAhead_cons, ← faces] at whole
    exact whole
  obtain ⟨found, reached, reported, recovered, walk, judged⟩ :=
    BodyLine.recover_line depth holds ended faces (bodyAhead_ne_nil closes body)
  have left : reached.cursor.ahead = bodyAhead body footer := walk.moved.ahead_eq faces
  refine ⟨found, { reached with cursor := reached.cursor.skipNewlines }, reported, ?_, ?_,
    walk.errors, judged⟩
  · intro bound
    obtain ⟨goesOn, notEnd⟩ := endsAt_line holds faces
    have looked : Stmt.atEnd .topLevel start = .ok false start := by
      rw [Stmt.atEnd, goesOn]
    have rounds : Stmt.round (Stmt.statement (depth + 1)) start = .ok found reached := by
      rw [← recovered]
      simp [Stmt.round, Action.bind_apply, check, notEnd]
    rw [Stmt.runFrom, Action.bind_of_ok looked, if_neg (by decide), Action.bind_of_ok rounds]
    rfl
  · obtain ⟨first, rest, front, _⟩ := dropBlank_bodyAhead closes body
    rw [← left]
    apply Cursor.ahead_skipNewlines
    simp [left, front]

/-- The run of statements over a body, line by line. -/
theorem runFrom_tells (depth : Nat) (body : List BodyLine) {bound : Nat} {start : Progress}
    (faces : start.cursor.ahead = dropBlank (bodyAhead body footer))
    (enough : start.cursor.ahead.length ≤ bound) :
    ∃ found reached reported,
      Stmt.runFrom .topLevel (Stmt.statement (depth + 1)) bound start = .ok found reached ∧
        reached.cursor.ahead = footer ∧ reached.errors = start.errors ++ reported ∧
        Tells reported body := by
  induction body generalizing bound start with
  | nil =>
    have atFooter : start.cursor.ahead = footer := faces.trans (dropBlank_footer closes)
    cases bound with
    | zero => simp [Cursor.ahead] at enough
    | succ bound =>
      refine ⟨[], start, [], ?_, atFooter, (List.append_nil _).symm, by simp [Tells]⟩
      simp [Stmt.runFrom, Action.bind_apply, Stmt.atEnd, endsAt_footer closes atFooter]
  | cons line body inductionHypothesis =>
    -- A blank line is passed with the skipping before it and reports nothing.
    by_cases blank : line.tokens = []
    · rw [dropBlank_blank blank] at faces
      obtain ⟨found, reached, reported, ran, left, errors, tells⟩ :=
        inductionHypothesis faces enough
      exact ⟨found, reached, reported, ran, left, errors,
        Tells.cons (BodyLine.judged_blank blank) tells⟩
    · rw [dropBlank_line blank] at faces
      obtain ⟨found, next, earlier, rounds, nextFaces, nextErrors, judged⟩ :=
        runFrom_line closes depth blank faces
      -- A round takes at least the line, so the bound left is still enough.
      have shorter : next.cursor.ahead.length < start.cursor.ahead.length := by
        have noLonger := List.length_dropWhile_le (fun token => token.kind == .newline)
          (bodyAhead body footer)
        rw [nextFaces, faces, BodyLine.whole, dropBlank]
        simp only [List.length_append, List.length_singleton]
        omega
      cases bound with
      | zero => simp [Cursor.ahead] at enough
      | succ bound =>
        have fits : next.cursor.ahead.length ≤ bound := by omega
        obtain ⟨others, final, later, ran, atFooter, errors, tells⟩ :=
          inductionHypothesis nextFaces fits
        refine ⟨found.toList ++ others, final, earlier ++ later, ?_, atFooter, ?_,
          Tells.cons judged tells⟩
        · rw [rounds, Action.bind_of_ok ran]
          rfl
        · rw [errors, nextErrors, List.append_assoc]

end Body

/-! ### The whole script -/

namespace Program

/-- What is ahead is told by how many tokens are left, since moving keeps the tokens. -/
theorem ahead_of_kinds {start reached : Cursor} {front rest : List Token}
    (faces : start.ahead = front ++ rest) (kept : reached.tokens = start.tokens)
    (kinds : reached.kinds = rest.map Token.kind) : reached.ahead = rest := by
  have lengths : reached.ahead.length = rest.length := by
    have counted := congrArg List.length kinds
    simpa [Cursor.kinds, Cursor.ahead] using counted
  have same : reached.before.reverse ++ reached.ahead =
      (start.before.reverse ++ front) ++ rest := by
    rw [List.append_assoc, ← faces]
    exact kept
  exact (List.append_inj' same lengths).2

theorem endsOnce_of_reads_header {start rest : List TokenKind}
    (reads : Reads (.all [
      .blank, .word .scriptWord, .word .areaWord, .word .newline,
      .blank, .word .startWord, .word .scriptWord, .word .newline]) start rest)
    (ended : EndsOnce rest) : EndsOnce start := by
  simp only [reads_all_cons, reads_all_nil, reads_word] at reads
  obtain ⟨_, blanks, _, rfl, _, rfl, _, rfl, _, between, _, rfl, _, rfl, _, rfl, rfl⟩ := reads
  apply endsOnce_of_reads_blank blanks
  simp only [EndsOnce.cons_iff, ne_eq, reduceCtorEq, not_false_eq_true]
  apply endsOnce_of_reads_blank between
  simpa only [EndsOnce.cons_iff, ne_eq, reduceCtorEq, not_false_eq_true] using ended

/-- The header is passed without an error. -/
theorem header_found {opening rest : List Token}
    (opens : Derives (.all [
      .blank, .word .scriptWord, .word .areaWord, .word .newline,
      .blank, .word .startWord, .word .scriptWord, .word .newline]) (opening.map Token.kind))
    (ended : EndsOnce (rest.map Token.kind)) :
    ∃ reached, header (Progress.ofTokens (opening ++ rest)) = .ok () reached ∧
      reached.errors = [] ∧ reached.cursor.ahead = rest := by
  let start := Progress.ofTokens (opening ++ rest)
  have reads : Reads _ ((opening ++ rest).map Token.kind) (rest.map Token.kind) :=
    ⟨_, opens, List.map_append⟩
  have ended := endsOnce_of_reads_header reads ended
  obtain ⟨_, reached, passed, quiet, _, left⟩ :=
    header_passes reads start (Cursor.kinds_ofTokens ended) ended
  have kept : reached.cursor.tokens = start.cursor.tokens := by
    have yields := header_yields start rfl
    rw [passed] at yields
    exact yields.1.kept
  have nonempty : opening ++ rest ≠ [] := by
    intro none
    rw [none] at ended
    exact EndsOnce.not_nil ended
  exact ⟨reached, passed, quiet, ahead_of_kinds (Cursor.ahead_ofTokens nonempty) kept left⟩

theorem header_straight (script : StraightScript) :
    ∃ reached, header (Progress.ofTokens script.tokens) = .ok () reached ∧
      reached.errors = [] ∧ reached.cursor.ahead = bodyAhead script.body script.footer :=
  header_found script.opens (bodyAhead_endsOnce script.closes script.body)

/-- There are no declarations; only the blank lines in front of the body are passed. -/
theorem declarations_straight {script : StraightScript} {start : Progress}
    (faces : start.cursor.ahead = bodyAhead script.body script.footer) :
    ∃ reached, declarations start = .ok [] reached ∧ reached.errors = start.errors ∧
      reached.cursor.ahead = dropBlank (bodyAhead script.body script.footer) := by
  let reached : Progress := { start with cursor := start.cursor.skipNewlines }
  obtain ⟨first, rest, front, other, _⟩ := dropBlank_bodyAhead script.closes script.body
  have ahead : reached.cursor.ahead = dropBlank (bodyAhead script.body script.footer) := by
    rw [← faces]
    apply Cursor.ahead_skipNewlines
    simp [faces, front]
  have current : reached.cursor.current = first := (List.cons.inj (ahead.trans front)).1
  have none : declarationsFrom reached.cursor.remaining reached = .ok [] reached := by
    rw [Cursor.remaining]
    simp [declarationsFrom, Action.bind_apply, check, current, other]
  exact ⟨reached, none, rfl, ahead⟩

/-- The statements are parsed line by line. -/
theorem parseRun_straight {script : StraightScript} {start : Progress}
    (faces : start.cursor.ahead = dropBlank (bodyAhead script.body script.footer)) :
    ∃ found reached reported, Stmt.parseRun .topLevel start = .ok found reached ∧
      reached.cursor.ahead = script.footer ∧ reached.errors = start.errors ++ reported ∧
      Tells reported script.body := by
  let next : Progress := { start with cursor := start.cursor.skipNewlines }
  obtain ⟨first, rest, front, _, inLine⟩ := dropBlank_bodyAhead script.closes script.body
  have current : start.cursor.current = first := (List.cons.inj (faces.trans front)).1
  have nextFaces : next.cursor.ahead = dropBlank (bodyAhead script.body script.footer) :=
    (Cursor.ahead_skipNewlines_of_other (current ▸ inLine)).trans faces
  exact runFrom_tells script.closes start.cursor.after.length script.body nextFaces
    (Nat.le_refl next.cursor.remaining)

theorem footer_straight {script : StraightScript} {start : Progress}
    (faces : start.cursor.ahead = script.footer) :
    ∃ reached, footer start = .ok () reached ∧ reached.errors = start.errors := by
  have kinds : start.cursor.kinds = script.footer.map Token.kind := by
    rw [← faces]
    rfl
  obtain ⟨_, reached, passed, quiet, _⟩ :=
    footer_passes (derives_iff_reads_nil.mp script.closes) start kinds
      (footer_endsOnce script.closes)
  exact ⟨reached, passed, quiet⟩

/-- In a straight script, syntax errors are reported on exactly the broken lines. -/
theorem errors_on_broken_lines (script : StraightScript) (number : Nat) :
    (∃ error ∈ (parse script.tokens).errors, error.report.position.line = number) ↔
      ∃ line ∈ script.body, line.Broken ∧ line.number = number := by
  obtain ⟨opened, opens, quiet, facesBody⟩ := header_straight script
  obtain ⟨declared, declares, noErrors, facesLine⟩ := declarations_straight facesBody
  obtain ⟨found, ended, reported, runs, facesFooter, errors, tells⟩ := parseRun_straight facesLine
  obtain ⟨closed, closes, kept⟩ := footer_straight facesFooter
  have parsed : statements (Progress.ofTokens script.tokens) = .ok ([] ++ found) closed := by
    rw [statements, Action.bind_of_ok opens, Action.bind_of_ok declares, Action.bind_of_ok runs,
      Action.bind_of_ok closes]
    rfl
  have all : (parse script.tokens).errors = reported := by
    rw [parse_eq, parsed]
    simp [kept, errors, noErrors, quiet]
  rw [all]
  exact tells number

/-- A line of a text, if it can stand in the body of a straight script. -/
def bodyLine? (tokens : List Token) (number : Nat) : Option BodyLine := do
  let line := tokens.filter fun token => token.position.line = number
  let held := line.dropLast
  let newline ← line.getLast?
  if fits : newline.kind = .newline ∧ (∀ token ∈ held, ¬ token.kind.EndsLine) ∧
      (∀ token ∈ held.head?,
        token.kind ∉ [.ifWord, .forWord, .repeatWord, .endWord, .declareWord]) ∧
      (∀ token ∈ held.tail,
        token.kind ∉ [.whenWord, .ifWord, .forWord, .declareWord, .startWord, .printWord]) ∧
      ∀ token ∈ held ++ [newline], token.position.line = number then
    some ⟨number, held, newline, fits.1, fits.2.1, fits.2.2.1, fits.2.2.2.1, fits.2.2.2.2⟩
  else
    none

/-- A script that breaks in its fourth line, where it goes on, at the end of its sixth line and at
the start of its eighth. -/
def brokenSource : String :=
  "SCRIPT AREA\nSTART SCRIPT\nx = 1\n3 = x\n\nPRINT: (x\nSCAN: x, y\nWHEN x\nPRINT: x & $\n" ++
    "END SCRIPT\n"

/-- A header without blank lines. -/
theorem derives_header : Derives
    (.all [.blank, .word .scriptWord, .word .areaWord, .word .newline,
      .blank, .word .startWord, .word .scriptWord, .word .newline])
    [.scriptWord, .areaWord, .newline, .startWord, .scriptWord, .newline] := by
  rw [derives_iff_reads_nil]
  simp only [reads_all_cons, reads_all_nil, reads_word]
  exact ⟨_, Reads.many_nil _, _, rfl, _, rfl, _, rfl, _, Reads.many_nil _, _, rfl, _, rfl, _, rfl,
    rfl⟩

/-- A footer that ends its line. -/
theorem derives_footer : Derives (.all [.word .endWord, .word .scriptWord, .blank, .word .eof])
    [.endWord, .scriptWord, .newline, .eof] := by
  rw [derives_iff_reads_nil]
  simp only [reads_all_cons, reads_all_nil, reads_word]
  exact ⟨_, rfl, _, rfl, _, Reads.many_cons (reads_word.mpr rfl) (Reads.many_nil _), _, rfl, rfl⟩

theorem brokenSource_header : ((lex brokenSource).tokens.take 6).map Token.kind =
    [.scriptWord, .areaWord, .newline, .startWord, .scriptWord, .newline] := by
  decide +kernel

theorem brokenSource_footer : ((lex brokenSource).tokens.drop 35).map Token.kind =
    [.endWord, .scriptWord, .newline, .eof] := by
  decide +kernel

def brokenScript : StraightScript where
  header := (lex brokenSource).tokens.take 6
  body := [3, 4, 5, 6, 7, 8, 9].filterMap (bodyLine? (lex brokenSource).tokens)
  footer := (lex brokenSource).tokens.drop 35
  opens := brokenSource_header ▸ derives_header
  closes := brokenSource_footer ▸ derives_footer

theorem brokenScript_errors_on_broken_lines :
    brokenScript.tokens = (lex brokenSource).tokens ∧
      (parse brokenScript.tokens).errors.map (·.report.position.line) = [4, 6, 8] ∧
      ∀ number, number ∈ [4, 6, 8] ↔
        ∃ line ∈ brokenScript.body, line.Broken ∧ line.number = number := by
  have whole : brokenScript.tokens = (lex brokenSource).tokens := by decide +kernel
  have lines : (parse brokenScript.tokens).errors.map (·.report.position.line) = [4, 6, 8] := by
    rw [whole]
    decide +kernel
  refine ⟨whole, lines, fun number => ?_⟩
  rw [← errors_on_broken_lines brokenScript number, ← lines]
  simp only [List.mem_map]

end Program

end LineScript
