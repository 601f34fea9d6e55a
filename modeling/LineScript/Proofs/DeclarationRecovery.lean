/-
Module: LineScript.Proofs.DeclarationRecovery
Purpose: How far the errors of one broken declaration reach.
Trusted boundary: none
Main exports: DeclaringLine, DeclaringScript, Recovered, broken_declaration_contained
-/
import LineScript.Proofs.BlamedTokens
import LineScript.Proofs.LineRecovery

/-!
A broken declaration is left at the token where its parser gave up. Parsing resumes at the next
line, and then nothing else is reported; or at a word further on in the same line. If this is
another `DECLARE`, the rest of the line is tried as a declaration, so its errors are still on the
line. If it is a word that only other statements start with, the declarations are over: the rest of
the line is taken for a statement, and declarations in later lines come too late.
-/

namespace LineScript

open Grammar Parse

/-- A line among the declarations of a script, with the newline that ends it: it is blank, or starts
as a declaration. -/
structure DeclaringLine where
  number : Nat
  tokens : List Token
  newline : Token
  breaks : newline.kind = .newline
  inside : ∀ token ∈ tokens, ¬ token.kind.EndsLine
  starts : ∀ token ∈ tokens.head?, token.kind = .declareWord
  numbered : ∀ token ∈ tokens ++ [newline], token.position.line = number

namespace DeclaringLine

/-- The tokens of the line with its newline. -/
def whole (line : DeclaringLine) : List Token :=
  line.tokens ++ [line.newline]

/-- The line holds something, but no declaration. -/
def Broken (line : DeclaringLine) : Prop :=
  line.tokens ≠ [] ∧ ¬ Derives (.part .declaration) (line.whole.map Token.kind)

/-- Behind the token of an error, the line goes on with a word that starts other statements than
declarations. -/
def InterruptedBehind (line : DeclaringLine) (error : SyntaxError) : Prop :=
  ∃ (earlier between : List Token) (word : Token) (later : List Token),
    line.tokens = earlier ++ error.token :: between ++ word :: later ∧
      word.kind ∈ [.whenWord, .ifWord, .forWord, .startWord, .printWord]

end DeclaringLine

/-- A script of such lines, with well-formed statements behind them. -/
structure DeclaringScript where
  header : List Token
  lines : List DeclaringLine
  statements : List Token
  footer : List Token
  opens : Derives
    (.all [.blank, .word .scriptWord, .word .areaWord, .word .newline,
      .blank, .word .startWord, .word .scriptWord, .word .newline]) (header.map Token.kind)
  runs : Derives (.lines .statement) (statements.map Token.kind)
  unended : .eof ∉ statements.map Token.kind
  closes : Derives (.all [.word .endWord, .word .scriptWord, .blank, .word .eof])
    (footer.map Token.kind)

/-- The tokens of some lines with others behind them. -/
def linesAhead (lines : List DeclaringLine) (rest : List Token) : List Token :=
  lines.flatMap DeclaringLine.whole ++ rest

/-- All tokens of the script. -/
def DeclaringScript.tokens (script : DeclaringScript) : List Token :=
  script.header ++ linesAhead script.lines (script.statements ++ script.footer)

/-! ### What stands behind the declarations -/

/-- Tokens to the end of a text that start neither with a blank line nor with a declaration. -/
structure Following (rest : List Token) : Prop where
  begins : ∃ first others, rest = first :: others ∧ first.kind ≠ .newline ∧
    first.kind ≠ .declareWord
  ended : EndsOnce (rest.map Token.kind)

theorem linesAhead_cons (line : DeclaringLine) (lines : List DeclaringLine) (rest : List Token) :
    linesAhead (line :: lines) rest = line.whole ++ linesAhead lines rest := by
  simp [linesAhead]

namespace DeclaringLine

variable (line : DeclaringLine) {lines : List DeclaringLine} {rest : List Token}

theorem dropBlank_blank (blank : line.tokens = []) :
    dropBlank (linesAhead (line :: lines) rest) = dropBlank (linesAhead lines rest) := by
  rw [linesAhead_cons, whole, blank]
  exact dropBlank_newline line.breaks _

theorem dropBlank_held (holds : line.tokens ≠ []) :
    dropBlank (linesAhead (line :: lines) rest) = line.whole ++ linesAhead lines rest := by
  rw [linesAhead_cons, whole, List.append_assoc]
  exact dropBlank_inside line.inside holds _

/-- A line that is not blank starts with a `DECLARE`. -/
theorem current_declares {start : Progress} (holds : line.tokens ≠ [])
    (faces : start.cursor.ahead = line.whole ++ rest) :
    start.cursor.current.kind = .declareWord := by
  obtain ⟨first, others, shape⟩ := List.exists_cons_of_ne_nil holds
  rw [whole, shape] at faces
  obtain ⟨same, _⟩ := List.cons.inj faces
  rw [same]
  exact line.starts first (by simp [shape])

theorem derives_of_not_broken (holds : line.tokens ≠ []) (good : ¬ line.Broken) :
    Derives (.part .declaration) (line.whole.map Token.kind) := by
  by_contra refused
  exact good ⟨holds, refused⟩

end DeclaringLine

namespace Following

variable {rest : List Token} (following : Following rest)

include following

theorem linesAhead_endsOnce (lines : List DeclaringLine) :
    EndsOnce ((linesAhead lines rest).map Token.kind) := by
  induction lines with
  | nil => exact following.ended
  | cons line lines inductionHypothesis =>
    rw [linesAhead_cons, List.map_append]
    apply endsOnce_append _ inductionHypothesis
    intro listed
    obtain ⟨token, member, last⟩ := List.mem_map.mp listed
    rcases List.mem_append.mp member with inTokens | isNewline
    · exact line.inside token inTokens (.inr last)
    · rw [List.mem_singleton.mp isNewline, line.breaks] at last
      cases last

theorem linesAhead_ne_nil (lines : List DeclaringLine) : linesAhead lines rest ≠ [] := by
  obtain ⟨first, others, rfl, _⟩ := following.begins
  simp [linesAhead]

/-- Behind the blank lines there is something. -/
theorem dropBlank_ne_nil (lines : List DeclaringLine) : dropBlank (linesAhead lines rest) ≠ [] := by
  induction lines with
  | nil =>
    obtain ⟨first, others, rfl, inLine, _⟩ := following.begins
    rw [linesAhead, List.flatMap_nil, List.nil_append, dropBlank_other inLine]
    exact List.cons_ne_nil _ _
  | cons line lines inductionHypothesis =>
    by_cases blank : line.tokens = []
    · rwa [line.dropBlank_blank blank]
    · rw [line.dropBlank_held blank]
      exact List.append_ne_nil_of_right_ne_nil _ (following.linesAhead_ne_nil lines)

end Following

/-- Lines of which none is broken are declarations and blank lines. -/
theorem reads_linesAhead {lines : List DeclaringLine} (good : ∀ line ∈ lines, ¬ line.Broken)
    (rest : List Token) :
    Reads (.all [.blank, .lines .declaration]) ((linesAhead lines rest).map Token.kind)
      (rest.map Token.kind) := by
  induction lines with
  | nil =>
    simp only [reads_all_cons, reads_all_nil]
    exact ⟨_, Reads.many_nil _, _, Reads.many_nil _, rfl⟩
  | cons line lines inductionHypothesis =>
    obtain ⟨first, others⟩ := List.forall_mem_cons.mp good
    have behind := inductionHypothesis others
    simp only [reads_all_cons, reads_all_nil] at behind ⊢
    obtain ⟨middle, blanks, _, declarations, rfl⟩ := behind
    rw [linesAhead_cons, List.map_append]
    by_cases blank : line.tokens = []
    · refine ⟨middle, Reads.many_cons (reads_word.mpr ?_) blanks, _, declarations, rfl⟩
      simp [DeclaringLine.whole, blank, line.breaks]
    · have derivation := line.derives_of_not_broken blank first
      refine ⟨_, Reads.many_nil _, _, Reads.many_cons ?_ declarations, rfl⟩
      simp only [reads_all_cons, reads_all_nil]
      exact ⟨_, ⟨_, derivation, rfl⟩, middle, blanks, rfl⟩

/-! ### One round of the declarations -/

namespace Cursor

theorem ne_newline_of_isResumption {kind : TokenKind} (resumes : isResumption kind = true) :
    kind ≠ .newline := by
  rintro rfl
  cases resumes

/-- Parsing resumes at a `DECLARE` or at a word of another statement. -/
theorem mem_of_isResumption {kind : TokenKind} (resumes : isResumption kind = true)
    (other : kind ≠ .declareWord) :
    kind ∈ [.whenWord, .ifWord, .forWord, .startWord, .printWord] := by
  simp only [isResumption, List.mem_cons, decide_eq_true_eq] at resumes ⊢
  tauto

/-- No blank line stands between the place where parsing resumes and the word there. -/
theorem ahead_skipNewlines_of_isResumption {cursor : Cursor} {word : Token} {behind : List Token}
    (faces : cursor.ahead = word :: behind) (resumes : isResumption word.kind = true) :
    cursor.skipNewlines.ahead = word :: behind := by
  have current : cursor.current = word := (List.cons.inj faces).1
  have inLine : cursor.current.kind ≠ .newline := current ▸ ne_newline_of_isResumption resumes
  exact (ahead_skipNewlines_of_other inLine).trans faces

end Cursor

namespace Program

theorem declarationsFrom_of_other (bound : Nat) {start : Progress}
    (other : start.cursor.current.kind ≠ .declareWord) :
    declarationsFrom bound start = .ok [] start := by
  cases bound with
  | zero => rfl
  | succ bound => simp [declarationsFrom, Action.bind_apply, check, other]

theorem declarationsFrom_round {start middle reached : Progress} {found : Option Stmt}
    {others : List Stmt} {bound : Nat} (declares : start.cursor.current.kind = .declareWord)
    (recovered : recover Stmt.declaration start = .ok found middle)
    (onward : declarationsFrom bound { middle with cursor := middle.cursor.skipNewlines } =
      .ok others reached) :
    declarationsFrom (bound + 1) start = .ok (found.toList ++ others) reached := by
  have looked : check [.declareWord] start = .ok true start := by simp [check, declares]
  have skipped : skipNewlines middle =
      .ok () { middle with cursor := middle.cursor.skipNewlines } := rfl
  rw [declarationsFrom, Action.bind_of_ok looked, if_pos rfl, Action.bind_of_ok recovered,
    Action.bind_of_ok skipped, Action.bind_of_ok onward]
  rfl

/-- How one round goes on from a place in a line: at the next line, which is then judged as far as
it is new; or at a word to resume at behind the token of an error. -/
inductive Resumed (left : List Token) (newline : Token) (after : List Token)
    (reported : List SyntaxError) (reached : Cursor) : Prop where
  | behind (faces : reached.ahead = after)
      (judged : reported ≠ [] ∨ Derives (.part .declaration) ((left ++ [newline]).map Token.kind))
  | inside {earlier between later : List Token} {word : Token} (error : SyntaxError)
      (listed : error ∈ reported)
      (split : left = earlier ++ error.token :: between ++ word :: later)
      (resumes : Cursor.isResumption word.kind = true)
      (faces : reached.ahead = word :: later ++ newline :: after)

section Round

variable {left after : List Token} {newline : Token} {start : Progress}
  (breaks : newline.kind = .newline) (inside : ∀ token ∈ left, ¬ token.kind.EndsLine)
  (faces : start.cursor.ahead = left ++ newline :: after)

include breaks inside faces

/-- A declaration found in the rest of a line is all of it. -/
theorem resumed_of_found {value : Stmt} {reached : Progress} {front passed : List Token}
    {last : Token} {reported : List SyntaxError} (ended : EndsOnce start.cursor.kinds)
    (found : Stmt.declaration start = .ok value reached) (walk : start.Walk passed reported reached)
    (shape : passed = front ++ [last]) (lastBreaks : last.kind = .newline)
    (onLine : OnLine front reported passed) :
    Resumed left newline after reported reached.cursor ∧
      ∀ error ∈ reported, error.token ∈ left ++ [newline] := by
  subst shape
  have split : front ++ last :: reached.cursor.ahead = left ++ newline :: after := by
    rw [← faces, walk.moved.ahead, List.append_assoc, List.singleton_append]
  obtain ⟨rfl, rfl⟩ := line_unique onLine.inside inside lastBreaks breaks split
  have rest : reached.cursor.ahead = after :=
    walk.moved.ahead_eq (by rw [faces, List.append_assoc, List.singleton_append])
  refine ⟨.behind rest ?_, onLine.placed⟩
  by_cases quiet : reported = []
  · subst quiet
    have same : reached.errors = start.errors := by rw [walk.errors, List.append_nil]
    obtain ⟨⟨kinds, derivation, whole⟩, _⟩ :=
      (Stmt.declaration_sound.ok found).2 (by rw [same]) ended
    have kindsAhead : start.cursor.kinds =
        (front ++ [last]).map Token.kind ++ reached.cursor.kinds := by
      have ahead := congrArg (List.map Token.kind) walk.moved.ahead
      rwa [List.map_append] at ahead
    rw [kindsAhead] at whole
    exact .inr (List.append_cancel_right whole ▸ derivation)
  · exact .inl quiet

/-- Where the parser of a declaration gives up in the rest of a line, recovery stays on the line
only to resume behind the error. -/
theorem resumed_of_lost {error : SyntaxError} {reached : Progress} {passed : List Token}
    {reported : List SyntaxError} (closed : start.cursor.Closed) (more : after ≠ [])
    (lost : Stmt.declaration start = .error error reached)
    (walk : start.Walk passed reported reached)
    (stranded : Stranded passed reached.cursor.current reported) :
    Resumed left newline after reported reached.cursor.synchronize ∧
      ∀ error ∈ reported, error.token ∈ left ++ [newline] := by
  obtain ⟨reports, onLine⟩ := stranded
  have same : passed ++ reached.cursor.current :: reached.cursor.after =
      left ++ newline :: after := by
    rw [← faces, walk.moved.ahead]
    rfl
  have places := mem_line_of_passed onLine.inside breaks same
  refine ⟨?_, fun error member => places error.token (onLine.placed error member)⟩
  -- The last error is at the token where the parser stopped.
  have blamed : ∃ message, ⟨reached.cursor.current, message⟩ ∈ reported := by
    have blames := Stmt.declaration_blamesOnce start closed
    unfold WalksFrom at blames
    rw [lost] at blames
    obtain ⟨_, _, other, earlier, message, rfl, _⟩ := blames
    have listed := List.append_cancel_left (walk.errors.symm.trans other.errors)
    exact ⟨message, by simp [listed]⟩
  obtain ⟨message, listed⟩ := blamed
  obtain ⟨rest, rfl, remains⟩ := line_front onLine.inside breaks same
  have restInside : ∀ token ∈ rest, ¬ token.kind.EndsLine := fun token member =>
    inside token (List.mem_append_right passed member)
  obtain ⟨skipped, moved, rfl | ⟨between, word, later, rfl, rfl, resumes⟩⟩ :=
    Cursor.exists_moved_synchronize_line remains breaks restInside more
  · refine .behind (moved.ahead_eq ?_) (.inl reports)
    rw [List.append_assoc, List.singleton_append]
    exact remains
  · refine .inside _ listed (List.append_assoc _ _ _).symm resumes (moved.ahead_eq ?_)
    rw [← List.append_assoc]
    exact remains

theorem recover_declaration (ended : EndsOnce start.cursor.kinds) (more : after ≠ []) :
    ∃ found middle reported, recover Stmt.declaration start = .ok found middle ∧
      middle.errors = start.errors ++ reported ∧
      Resumed left newline after reported middle.cursor ∧
      ∀ error ∈ reported, error.token ∈ left ++ [newline] := by
  have closed := Cursor.closed_of_endsOnce ended
  have walks := Stmt.declaration_closesLine start closed
  unfold WalksFrom at walks
  cases ending : Stmt.declaration start with
  | ok value reached =>
    rw [ending] at walks
    obtain ⟨passed, reported, walk, front, last, shape, lastBreaks, onLine⟩ := walks
    exact ⟨some value, reached, reported, by simp only [recover, ending], walk.errors,
      resumed_of_found breaks inside faces ended ending walk shape lastBreaks onLine⟩
  | error error reached =>
    rw [ending] at walks
    obtain ⟨passed, reported, walk, stranded⟩ := walks
    refine ⟨none, { reached with cursor := reached.cursor.synchronize }, reported, ?_, walk.errors,
      resumed_of_lost breaks inside faces closed more ending walk stranded⟩
    simp only [recover, ending]

end Round

/-- A line that is a declaration is passed without an error. -/
theorem recover_good {line : DeclaringLine} (holds : line.tokens ≠ []) (good : ¬ line.Broken)
    {start : Progress} {after : List Token} (ended : EndsOnce start.cursor.kinds)
    (faces : start.cursor.ahead = line.whole ++ after) :
    ∃ found middle, recover Stmt.declaration start = .ok found middle ∧
      middle.errors = start.errors ∧ middle.cursor.ahead = after := by
  have kinds : start.cursor.kinds = line.whole.map Token.kind ++ after.map Token.kind := by
    rw [← List.map_append, ← faces]
    rfl
  have reads : Reads (.part .declaration) start.cursor.kinds (after.map Token.kind) :=
    ⟨_, line.derives_of_not_broken holds good, kinds⟩
  obtain ⟨value, reached, found, quiet, _, left⟩ :=
    Stmt.declaration_passes reads start rfl ended
  have kept : reached.cursor.tokens = start.cursor.tokens := by
    have yields := Stmt.declaration_yields start rfl
    rw [found] at yields
    exact yields.1.kept
  refine ⟨some value, reached, ?_, quiet, ahead_of_kinds faces kept left⟩
  simp only [recover, found]

/-! ### The declarations of a script -/

/-- How the declarations end if one line among them is broken: all errors are on that line, and the
statements come next; or parsing resumed inside the line at a word of another statement. -/
inductive Recovered (broken : DeclaringLine) (rest : List Token) (reached : Progress) : Prop where
  | contained (left : reached.cursor.kinds = rest.map Token.kind) (reports : reached.errors ≠ [])
      (placed : ∀ error ∈ reached.errors, error.token ∈ broken.whole)
  | interrupted (error : SyntaxError) (listed : error ∈ reached.errors)
      (behind : broken.InterruptedBehind error)

section Lines

variable {broken : DeclaringLine} {back : List DeclaringLine} {rest : List Token}
  (following : Following rest) (good : ∀ line ∈ back, ¬ line.Broken)

include following

/-- Inside a line, the end of the text is still ahead. -/
theorem endsOnce_of_faces {start : Progress} {left : List Token} {newline : Token}
    {lines : List DeclaringLine} (inside : ∀ token ∈ left, ¬ token.kind.EndsLine)
    (breaks : newline.kind = .newline)
    (faces : start.cursor.ahead = left ++ newline :: linesAhead lines rest) :
    EndsOnce start.cursor.kinds := by
  have whole : start.cursor.kinds =
      left.map Token.kind ++ .newline :: (linesAhead lines rest).map Token.kind := by
    rw [← breaks, ← List.map_cons, ← List.map_append, ← faces]
    rfl
  rw [whole]
  apply endsOnce_append
  · intro listed
    obtain ⟨token, member, last⟩ := List.mem_map.mp listed
    exact inside token member (.inr last)
  · exact (EndsOnce.cons_iff (by decide)).mpr (following.linesAhead_endsOnce lines)

include good

/-- Behind the broken line nothing else is reported. -/
theorem declarationsFrom_behind {middle : Progress} {bound : Nat}
    (faces : middle.cursor.ahead = linesAhead back rest) (reports : middle.errors ≠ [])
    (placed : ∀ error ∈ middle.errors, error.token ∈ broken.whole)
    (fits : middle.cursor.ahead.length ≤ bound) :
    ∃ others reached,
      declarationsFrom bound { middle with cursor := middle.cursor.skipNewlines } =
        .ok others reached ∧ Recovered broken rest reached := by
  have kinds : middle.cursor.kinds = (linesAhead back rest).map Token.kind := by
    rw [← faces]
    rfl
  have ended : EndsOnce middle.cursor.kinds := kinds ▸ following.linesAhead_endsOnce back
  have skipped := Cursor.kinds_skipNewlines middle.cursor ended
  have trimmed : EndsOnce (trim middle.cursor.kinds) := ended.dropWhile rfl
  have shorter : (trim middle.cursor.kinds).length ≤ bound := by
    have noLonger := List.length_dropWhile_le (· == TokenKind.newline) middle.cursor.kinds
    rw [Cursor.length_kinds] at noLonger
    exact noLonger.trans fits
  obtain ⟨first, others, shape, inLine, other⟩ := following.begins
  have reads := reads_linesAhead good rest
  rw [← kinds] at reads
  have behind : rest.map Token.kind = first.kind :: others.map Token.kind := by
    rw [shape, List.map_cons]
  obtain ⟨found, reached, ending, quiet, _, left⟩ :=
    declarationsFrom_trim_passes behind inLine other reads shorter
      { middle with cursor := middle.cursor.skipNewlines } skipped trimmed
  refine ⟨found, reached, ending, .contained left ?_ ?_⟩
  · rwa [quiet]
  · rwa [quiet]

/-- The rounds over what is left of the broken line, from a `DECLARE` in it. -/
theorem declarationsFrom_broken {earlier left : List Token} {start : Progress} {bound : Nat}
    (split : broken.tokens = earlier ++ left)
    (declares : start.cursor.current.kind = .declareWord)
    (faces : start.cursor.ahead = left ++ broken.newline :: linesAhead back rest)
    (fits : start.cursor.ahead.length ≤ bound)
    (placed : ∀ error ∈ start.errors, error.token ∈ broken.whole)
    (judged : start.errors ≠ [] ∨
      ¬ Derives (.part .declaration) ((left ++ [broken.newline]).map Token.kind)) :
    ∃ found reached, declarationsFrom bound start = .ok found reached ∧
      Recovered broken rest reached := by
  -- Each round that stays on the line leaves an error behind, so only the first one is judged by
  -- what the line holds.
  induction bound generalizing earlier left start with
  | zero => simp [Cursor.ahead] at fits
  | succ bound inductionHypothesis =>
    have inside : ∀ token ∈ left, ¬ token.kind.EndsLine := by
      intro token member
      apply broken.inside
      rw [split]
      exact List.mem_append_right earlier member
    have ended := endsOnce_of_faces following inside broken.breaks faces
    obtain ⟨found, middle, reported, recovered, errors, resumed, inLine⟩ :=
      recover_declaration broken.breaks inside faces ended (following.linesAhead_ne_nil back)
    have stillPlaced : ∀ error ∈ middle.errors, error.token ∈ broken.whole := by
      intro error member
      rw [errors] at member
      rcases List.mem_append.mp member with before | new
      · exact placed error before
      · rw [DeclaringLine.whole, split, List.append_assoc]
        exact List.mem_append_right earlier (inLine error new)
    rw [faces, List.length_append, List.length_cons] at fits
    cases resumed with
    | behind facesNext judgedHere =>
      have reports : middle.errors ≠ [] := by
        rw [errors]
        rcases judged with before | underived
        · exact List.append_ne_nil_of_left_ne_nil before reported
        · have new := judgedHere.resolve_right underived
          exact List.append_ne_nil_of_right_ne_nil start.errors new
      have fitsNext : middle.cursor.ahead.length ≤ bound := by
        rw [facesNext]
        omega
      obtain ⟨others, reached, onward, ends⟩ :=
        declarationsFrom_behind following good facesNext reports stillPlaced fitsNext
      exact ⟨_, reached, declarationsFrom_round declares recovered onward, ends⟩
    | @inside front between later word error listed here resumes facesWord =>
      subst here
      have reported : error ∈ middle.errors := errors ▸ List.mem_append_right _ listed
      have splitNext : broken.tokens =
          (earlier ++ front) ++ error.token :: between ++ word :: later := by
        rw [split]
        simp only [List.append_assoc]
      let next : Progress := { middle with cursor := middle.cursor.skipNewlines }
      have facesNext : next.cursor.ahead =
          word :: later ++ broken.newline :: linesAhead back rest :=
        Cursor.ahead_skipNewlines_of_isResumption facesWord resumes
      have currentNext : next.cursor.current = word := (List.cons.inj facesNext).1
      by_cases again : word.kind = .declareWord
      · have fitsNext : next.cursor.ahead.length ≤ bound := by
          rw [facesNext]
          simp only [List.length_append, List.length_cons] at fits ⊢
          omega
        obtain ⟨others, reached, onward, ends⟩ := inductionHypothesis splitNext
          (currentNext ▸ again) facesNext fitsNext stillPlaced
          (.inl (List.ne_nil_of_mem reported))
        exact ⟨_, reached, declarationsFrom_round declares recovered onward, ends⟩
      · have onward := declarationsFrom_of_other bound (currentNext ▸ again)
        exact ⟨_, next, declarationsFrom_round declares recovered onward,
          .interrupted error reported ⟨_, between, word, later, splitNext,
            Cursor.mem_of_isResumption resumes again⟩⟩

/-- The rounds over good lines in front of the broken one, and over that one. -/
theorem declarationsFrom_lines (isBroken : broken.Broken) {front : List DeclaringLine}
    (goodFront : ∀ line ∈ front, ¬ line.Broken) {start : Progress} {bound : Nat}
    (faces : start.cursor.ahead = dropBlank (linesAhead (front ++ broken :: back) rest))
    (quiet : start.errors = []) (fits : start.cursor.ahead.length ≤ bound) :
    ∃ found reached, declarationsFrom bound start = .ok found reached ∧
      Recovered broken rest reached := by
  induction front generalizing start bound with
  | nil =>
    -- The broken line is next: what it reports is `declarationsFrom_broken`'s.
    rw [List.nil_append, broken.dropBlank_held isBroken.1] at faces
    have declares := broken.current_declares isBroken.1 faces
    rw [DeclaringLine.whole, List.append_assoc, List.singleton_append] at faces
    apply declarationsFrom_broken following good (List.nil_append _).symm declares faces fits
    · simp [quiet]
    · exact .inr isBroken.2
  | cons line front inductionHypothesis =>
    obtain ⟨goodLine, goodFront⟩ := List.forall_mem_cons.mp goodFront
    -- A blank line is passed with the ones before it; a good one takes a round of the loop.
    by_cases blank : line.tokens = []
    · rw [List.cons_append, line.dropBlank_blank blank] at faces
      exact inductionHypothesis goodFront faces quiet fits
    · rw [List.cons_append, line.dropBlank_held blank] at faces
      have declares := line.current_declares blank faces
      have split := faces
      rw [DeclaringLine.whole, List.append_assoc, List.singleton_append] at split
      have ended := endsOnce_of_faces following line.inside line.breaks split
      obtain ⟨found, middle, recovered, still, left⟩ := recover_good blank goodLine ended faces
      let next : Progress := { middle with cursor := middle.cursor.skipNewlines }
      have facesNext : next.cursor.ahead =
          dropBlank (linesAhead (front ++ broken :: back) rest) := by
        rw [← left]
        apply Cursor.ahead_skipNewlines
        rw [left]
        exact following.dropBlank_ne_nil _
      -- A round takes at least the line, so the bound left is still enough.
      have shorter : next.cursor.ahead.length < start.cursor.ahead.length := by
        have noLonger := List.length_dropWhile_le (fun token => token.kind == .newline)
          (linesAhead (front ++ broken :: back) rest)
        rw [facesNext, split, dropBlank]
        simp only [List.length_append, List.length_cons]
        omega
      cases bound with
      | zero => simp [Cursor.ahead] at fits
      | succ bound =>
        have fitsNext : next.cursor.ahead.length ≤ bound := by omega
        obtain ⟨others, reached, onward, ends⟩ :=
          inductionHypothesis goodFront facesNext (still.trans quiet) fitsNext
        exact ⟨_, reached, declarationsFrom_round declares recovered onward, ends⟩

end Lines

/-! ### The whole script -/

theorem script_following (script : DeclaringScript) :
    Following (script.statements ++ script.footer) where
  begins := by
    obtain ⟨last, second, behind, shape, ends, _⟩ := footer_begins script.closes
    have reads : Reads (.lines .statement) ((script.statements ++ script.footer).map Token.kind)
        (script.footer.map Token.kind) :=
      ⟨_, script.runs, List.map_append⟩
    have closing : script.footer.map Token.kind = .endWord :: (second :: behind).map Token.kind := by
      rw [shape, List.map_cons, ends]
    obtain ⟨kind, listed, others, starts⟩ := lines_begin statement_begins reads closing
    obtain ⟨first, rest, whole, rfl, _⟩ := List.map_eq_cons_iff.mp starts
    exact ⟨first, rest, whole, ne_of_mem_of_not_mem listed (by decide),
      ne_of_mem_of_not_mem listed (by decide)⟩
  ended := by
    rw [List.map_append]
    exact endsOnce_append script.unended (footer_endsOnce script.closes)

section Behind

variable {tokens : List Token} {opened declared : Progress} {first : List Stmt}
  (opens : header (Progress.ofTokens tokens) = .ok () opened)
  (declares : declarations opened = .ok first declared)

include opens declares

/-- What was reported by the end of the declarations stays reported. -/
theorem mem_errors_of_declarations (closed : opened.cursor.Closed) {error : SyntaxError}
    (listed : error ∈ declared.errors) : error ∈ (parse tokens).errors := by
  have opening := declarations_blamesOnce opened closed
  unfold WalksFrom at opening
  rw [declares] at opening
  obtain ⟨_, _, walk, _⟩ := opening
  have blames : BlamesOnce (do
      let rest ← Stmt.parseRun .topLevel
      footer
      return first ++ rest) :=
    (Stmt.parseRun_blamesOnce .topLevel).bind fun rest =>
      footer_blamesOnce.bind fun _ => BlamesOnce.pure _
  have onward := blames declared (walk.moved.closed closed)
  unfold WalksFrom at onward
  rw [parse_eq, statements, Action.bind_of_ok opens, Action.bind_of_ok declares]
  split at onward
  · rename_i found reached ending
    obtain ⟨_, later, onward, _⟩ := onward
    simp only [ending, onward.errors]
    exact List.mem_append_left later listed
  · rename_i error reached ending
    obtain ⟨_, later, onward, _⟩ := onward
    simp only [ending, onward.errors]
    exact List.mem_append_left later listed

/-- Well-formed statements and a footer add nothing. -/
theorem errors_eq_of_declarations {script : DeclaringScript}
    (left : declared.cursor.kinds = (script.statements ++ script.footer).map Token.kind) :
    (parse tokens).errors = declared.errors := by
  obtain ⟨last, second, behind, shape, ends, names⟩ := footer_begins script.closes
  have closing : script.footer.map Token.kind =
      .endWord :: .scriptWord :: behind.map Token.kind := by
    rw [shape, List.map_cons, List.map_cons, ends, names]
  have reads : Reads (.lines .statement) declared.cursor.kinds (script.footer.map Token.kind) :=
    ⟨_, script.runs, left.trans List.map_append⟩
  have ended : EndsOnce declared.cursor.kinds := left ▸ (script_following script).ended
  have stops : Stmt.Stops .topLevel (script.footer.map Token.kind) :=
    closing ▸ ⟨⟨_, rfl⟩, Stmt.atEnd_script⟩
  have passes : Passes (Stmt.parseRun .topLevel) declared.cursor.kinds
      (script.footer.map Token.kind) :=
    Accepts.counting
      (Stmt.run_passes (Stmt.statement_complete _) (Nat.le_refl _) stops (Reads.many_nil _) reads)
  obtain ⟨rest, ran, runs, quiet, _, atFooter⟩ := passes declared rfl ended
  obtain ⟨_, finished, closes, still, _⟩ :=
    footer_passes (derives_iff_reads_nil.mp script.closes) ran atFooter
      (footer_endsOnce script.closes)
  rw [parse_eq, statements, Action.bind_of_ok opens, Action.bind_of_ok declares,
    Action.bind_of_ok runs, Action.bind_of_ok closes]
  exact still.trans quiet

end Behind

/-- If one line among the declarations of a script is broken and the rest of the script is well
formed, something is reported. All errors are on the broken line, unless parsing resumed inside this
line, behind one of the errors, at a word that starts other statements than declarations. -/
theorem broken_declaration_contained (script : DeclaringScript) (front back : List DeclaringLine)
    (broken : DeclaringLine) (lines : script.lines = front ++ broken :: back)
    (isBroken : broken.Broken) (good : ∀ line ∈ front ++ back, ¬ line.Broken) :
    (parse script.tokens).errors ≠ [] ∧
      ((∃ error ∈ (parse script.tokens).errors, broken.InterruptedBehind error) ∨
        ∀ error ∈ (parse script.tokens).errors,
          error.token ∈ broken.whole ∧ error.report.position.line = broken.number) := by
  obtain ⟨goodFront, goodBack⟩ := List.forall_mem_append.mp good
  have following := script_following script
  have ended := following.linesAhead_endsOnce script.lines
  obtain ⟨opened, opens, quiet, faces⟩ := header_found script.opens ended
  have kinds : opened.cursor.kinds =
      (linesAhead script.lines (script.statements ++ script.footer)).map Token.kind := by
    rw [← faces]
    rfl
  let next : Progress := { opened with cursor := opened.cursor.skipNewlines }
  have facesNext : next.cursor.ahead =
      dropBlank (linesAhead (front ++ broken :: back) (script.statements ++ script.footer)) := by
    rw [← lines, ← faces]
    apply Cursor.ahead_skipNewlines
    rw [faces]
    exact following.dropBlank_ne_nil _
  obtain ⟨found, declared, declares, recovered⟩ := declarationsFrom_lines following goodBack
    isBroken goodFront facesNext quiet (Nat.le_refl next.cursor.remaining)
  have declares : declarations opened = .ok found declared := declares
  -- Either the loop arrives at the statements and has reported on the broken line alone, or it has
  -- listed the report behind an interrupting word.
  cases recovered with
  | contained left reports placed =>
    rw [DeclaringScript.tokens, errors_eq_of_declarations opens declares left]
    refine ⟨reports, .inr fun error member => ?_⟩
    exact ⟨placed error member, broken.numbered error.token (placed error member)⟩
  | interrupted error listed behind =>
    have closed := Cursor.closed_of_endsOnce (kinds ▸ ended)
    have reported := mem_errors_of_declarations opens declares closed listed
    exact ⟨List.ne_nil_of_mem reported, .inl ⟨error, reported, behind⟩⟩

/-! ### Two scripts with a broken declaration -/

/-- A line of a text, if it can stand among the declarations of a script. -/
def declaringLine? (tokens : List Token) (number : Nat) : Option DeclaringLine := do
  let line := tokens.filter fun token => token.position.line = number
  let held := line.dropLast
  let newline ← line.getLast?
  if fits : newline.kind = .newline ∧ (∀ token ∈ held, ¬ token.kind.EndsLine) ∧
      (∀ token ∈ held.head?, token.kind = .declareWord) ∧
      ∀ token ∈ held ++ [newline], token.position.line = number then
    some ⟨number, held, newline, fits.1, fits.2.1, fits.2.2.1, fits.2.2.2⟩
  else
    none

/-- A declaration of one name. -/
theorem derives_declaration : Derives (.part .declaration)
    [.declareWord, .typeName .int, .identifier, .newline] := by
  rw [derives_iff_reads_nil, reads_part, rule, Phrase.list]
  simp only [reads_all_cons, reads_all_nil, reads_word, reads_oneOf, reads_part, rule]
  refine ⟨_, rfl, _, ⟨.typeName .int, ?_, rfl⟩, _, ⟨_, ⟨_, rfl, _, ?_, rfl⟩, _, Reads.many_nil _,
    rfl⟩, _, rfl, rfl⟩
  · decide
  · exact reads_optional.mpr (.inl rfl)

/-- The fourth line is left at its number and taken up at its second `DECLARE`. -/
def resumedSource : String :=
  "SCRIPT AREA\nSTART SCRIPT\nDECLARE INT a\nDECLARE 3 DECLARE INT 4\nDECLARE INT b\n" ++
    "SCAN: b\nEND SCRIPT\n"

theorem resumedSource_kinds :
    ((lex resumedSource).tokens.take 6).map Token.kind =
        [.scriptWord, .areaWord, .newline, .startWord, .scriptWord, .newline] ∧
      (((lex resumedSource).tokens.drop 20).take 4).map Token.kind =
        [.scanWord, .colon, .identifier, .newline] ∧
      ((lex resumedSource).tokens.drop 24).map Token.kind =
        [.endWord, .scriptWord, .newline, .eof] := by
  decide +kernel

/-- A statement that reads one name. -/
theorem derives_scan : Derives (.lines .statement) [.scanWord, .colon, .identifier, .newline] := by
  rw [derives_iff_reads_nil]
  refine Reads.many_cons ?_ (Reads.many_nil [])
  simp only [reads_all_cons, reads_all_nil, reads_part, rule]
  refine ⟨[], reads_any.mpr ⟨_, List.mem_cons_of_mem _ List.mem_cons_self, ?_⟩, _,
    Reads.many_nil _, rfl⟩
  simp only [Phrase.list, reads_all_cons, reads_all_nil, reads_word]
  exact ⟨_, rfl, _, rfl, _, ⟨_, rfl, _, Reads.many_nil _, rfl⟩, _, rfl, rfl⟩

def resumedScript : DeclaringScript where
  header := (lex resumedSource).tokens.take 6
  lines := [3, 4, 5].filterMap (declaringLine? (lex resumedSource).tokens)
  statements := ((lex resumedSource).tokens.drop 20).take 4
  footer := (lex resumedSource).tokens.drop 24
  opens := by
    rw [resumedSource_kinds.1]
    exact derives_header
  runs := by
    rw [resumedSource_kinds.2.1]
    exact derives_scan
  unended := by
    rw [resumedSource_kinds.2.1]
    decide
  closes := by
    rw [resumedSource_kinds.2.2]
    exact derives_footer

/-- A line is broken by a number in the place of its type, or of its first name. -/
theorem broken_of_kinds {line : DeclaringLine} {behind : List TokenKind}
    (kinds : line.whole.map Token.kind = .declareWord :: .integerLiteral :: behind ∨
      line.whole.map Token.kind = .declareWord :: .typeName .int :: .integerLiteral :: behind) :
    line.Broken := by
  refine ⟨fun blank => by simp [DeclaringLine.whole, blank] at kinds, fun derivation => ?_⟩
  rw [derives_iff_reads_nil, reads_part, rule, Phrase.list] at derivation
  simp only [reads_all_cons, reads_word, reads_oneOf, reads_part, rule] at derivation
  obtain ⟨_, declares, _, ⟨type, typed, rfl⟩, _, ⟨_, ⟨_, named, _⟩, _⟩, _⟩ := derivation
  rcases kinds with kinds | kinds
  · rw [kinds] at declares
    obtain ⟨_, onward⟩ := List.cons.inj declares
    obtain ⟨rfl, _⟩ := List.cons.inj onward
    exact absurd typed (by decide)
  · rw [kinds, named] at declares
    obtain ⟨_, onward⟩ := List.cons.inj declares
    obtain ⟨_, onward⟩ := List.cons.inj onward
    cases onward

theorem not_broken_of_kinds {line : DeclaringLine}
    (kinds : line.whole.map Token.kind = [.declareWord, .typeName .int, .identifier, .newline]) :
    ¬ line.Broken :=
  fun broken => broken.2 (kinds ▸ derives_declaration)

theorem resumedScript_contained :
    resumedScript.tokens = (lex resumedSource).tokens ∧
      (parse resumedScript.tokens).errors.map (·.message) =
        ["Expected variable type", "Expected variable name"] ∧
      ∃ before broken behind, resumedScript.lines = [before, broken, behind] ∧ broken.Broken ∧
        (∀ line ∈ [before, behind], ¬ line.Broken) ∧ broken.number = 4 ∧
        ∀ error ∈ (parse resumedScript.tokens).errors, error.report.position.line = 4 := by
  have whole : resumedScript.tokens = (lex resumedSource).tokens := by decide +kernel
  have messages : (parse resumedScript.tokens).errors.map (·.message) =
      ["Expected variable type", "Expected variable name"] := by
    rw [whole]
    decide +kernel
  -- The lines are known by number and kinds only, and nothing below asks more of them.
  have kinds : resumedScript.lines.map (fun line => (line.number, line.whole.map Token.kind)) =
      [(3, [.declareWord, .typeName .int, .identifier, .newline]),
        (4, [.declareWord, .integerLiteral, .declareWord, .typeName .int, .integerLiteral,
          .newline]),
        (5, [.declareWord, .typeName .int, .identifier, .newline])] := by decide +kernel
  obtain ⟨before, _, lines, first, kinds⟩ := List.map_eq_cons_iff.mp kinds
  obtain ⟨broken, _, rfl, second, kinds⟩ := List.map_eq_cons_iff.mp kinds
  obtain ⟨behind, _, rfl, third, kinds⟩ := List.map_eq_cons_iff.mp kinds
  obtain rfl := List.map_eq_nil_iff.mp kinds
  simp only [Prod.mk.injEq] at first second third
  obtain ⟨number, kinds⟩ := second
  have isBroken : broken.Broken := broken_of_kinds (.inl kinds)
  have good : ∀ line ∈ [before, behind], ¬ line.Broken := by
    simp only [List.forall_mem_cons]
    exact ⟨not_broken_of_kinds first.2, not_broken_of_kinds third.2, by simp⟩
  refine ⟨whole, messages, before, broken, behind, lines, isBroken, good, number, ?_⟩
  obtain ⟨_, ⟨error, _, interrupted⟩ | placed⟩ :=
    broken_declaration_contained resumedScript [before] [behind] broken lines isBroken good
  · obtain ⟨_, _, word, _, split, listed⟩ := interrupted
    have held : word.kind ∈ broken.whole.map Token.kind := by
      simp [DeclaringLine.whole, split]
    rw [kinds] at held
    have apart : ∀ kind ∈ [TokenKind.whenWord, .ifWord, .forWord, .startWord, .printWord],
        kind ∉ [TokenKind.declareWord, .integerLiteral, .declareWord, .typeName .int,
          .integerLiteral, .newline] := by decide
    exact absurd held (apart word.kind listed)
  · intro error member
    rw [← number]
    exact (placed error member).2

/-- The third line is left at its number and taken up at its `PRINT`. -/
def interruptedSource : String :=
  "SCRIPT AREA\nSTART SCRIPT\nDECLARE INT 3 PRINT: 1\nDECLARE INT y\nEND SCRIPT\n"

theorem interruptedSource_kinds :
    ((lex interruptedSource).tokens.take 6).map Token.kind =
        [.scriptWord, .areaWord, .newline, .startWord, .scriptWord, .newline] ∧
      ((lex interruptedSource).tokens.drop 17).map Token.kind =
        [.endWord, .scriptWord, .newline, .eof] := by
  decide +kernel

def interruptedScript : DeclaringScript where
  header := (lex interruptedSource).tokens.take 6
  lines := [3, 4].filterMap (declaringLine? (lex interruptedSource).tokens)
  statements := []
  footer := (lex interruptedSource).tokens.drop 17
  opens := by
    rw [interruptedSource_kinds.1]
    exact derives_header
  runs := derives_iff_reads_nil.mpr (Reads.many_nil [])
  unended := by simp
  closes := by
    rw [interruptedSource_kinds.2]
    exact derives_footer

/-- An error on a line that is a declaration, in front of which no statement stands. -/
theorem interruptedScript_not_contained :
    interruptedScript.tokens = (lex interruptedSource).tokens ∧
      ∃ broken behind, interruptedScript.lines = [broken, behind] ∧ broken.Broken ∧
        ¬ behind.Broken ∧ broken.number = 3 ∧
        ∃ error ∈ (parse interruptedScript.tokens).errors,
          error.message = "Declarations must come before executable statements" ∧
            error.report.position.line = 4 := by
  have whole : interruptedScript.tokens = (lex interruptedSource).tokens := by decide +kernel
  have kinds : interruptedScript.lines.map (fun line => (line.number, line.whole.map Token.kind)) =
      [(3, [.declareWord, .typeName .int, .integerLiteral, .printWord, .colon, .integerLiteral,
        .newline]),
        (4, [.declareWord, .typeName .int, .identifier, .newline])] := by decide +kernel
  have late : ∃ error ∈ (parse interruptedScript.tokens).errors,
      error.message = "Declarations must come before executable statements" ∧
        error.report.position.line = 4 := by
    rw [whole]
    decide +kernel
  obtain ⟨broken, _, lines, first, kinds⟩ := List.map_eq_cons_iff.mp kinds
  obtain ⟨behind, _, rfl, second, kinds⟩ := List.map_eq_cons_iff.mp kinds
  obtain rfl := List.map_eq_nil_iff.mp kinds
  simp only [Prod.mk.injEq] at first second
  exact ⟨whole, broken, behind, lines, broken_of_kinds (.inr first.2),
    not_broken_of_kinds second.2, first.1, late⟩

end Program

end LineScript
