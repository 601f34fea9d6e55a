/-
Module: LineScript.Proofs.EchoedLines
Purpose: Every report is echoed as exactly one line.
Trusted boundary: none
Main exports: IsLine, Log.Balanced, Session.balanced_checked, Session.balanced_run
-/
import LineScript.Proofs.ParallelTrees
import LineScript.Proofs.RelatedRuns
import LineScript.Proofs.StaticGate

/-!
What a report says comes from fixed words, from quoted fragments, and from the lexemes of tokens.
The only token with a newline in its lexeme is the newline, and no report shows that one. So each
report is echoed as one line, and a log that began without reports has echoed as many lines as it
holds reports, whatever was run.
-/

namespace LineScript

/-! ### Lines -/

/-- A text that is one line, with the newline that ends it. -/
def IsLine (text : String) : Prop :=
  ∃ line, OneLine line ∧ text = line ++ "\n"

/-- A line has its newline at the end and nowhere else. -/
theorem IsLine.count_newline {text : String} (isLine : IsLine text) :
    text.toList.count '\n' = 1 := by
  obtain ⟨line, oneLine, rfl⟩ := isLine
  rw [String.toList_append, List.count_append, List.count_eq_zero_of_not_mem oneLine]
  rfl

theorem IsLine.ne_empty {text : String} (isLine : IsLine text) : text ≠ "" := by
  rintro rfl
  exact absurd isLine.count_newline (by decide)

/-- The place of an error is printed in one line. -/
theorem Position.oneLine_echo (position : Position) : OneLine position.echo := by
  unfold echo
  simp only [oneLine_append, Number.oneLine_natText, and_true]
  decide

theorem Cause.oneLine_className (cause : Cause) : OneLine cause.className := by
  unfold className
  split <;> decide

/-- A lexical error is echoed as a line, if its message is one. -/
theorem LexicalError.isLine_echo {error : LexicalError} (oneLine : OneLine error.message) :
    IsLine error.echo := by
  refine ⟨error.position.echo ++ "Error: " ++ error.text, ?_, rfl⟩
  simp only [text, oneLine_append, Position.oneLine_echo, oneLine, oneLine_quoted, and_true]
  decide

/-- A token whose lexeme breaks no line, unless it is a newline. -/
def Token.Unbroken (token : Token) : Prop :=
  token.kind ≠ .newline → OneLine token.lexeme

/-- The lexeme of the token blamed is quoted only where it is no newline. -/
theorem SyntaxError.oneLine_place {error : SyntaxError} (unbroken : error.token.Unbroken) :
    OneLine error.place := by
  unfold place
  split
  · decide
  · decide
  · rename_i notNewline
    exact (unbroken notNewline).framed (by decide) (by decide)

/-- So is a syntax error, at a token whose lexeme has no newline inside. -/
theorem SyntaxError.isLine_echo {error : SyntaxError} (unbroken : error.token.Unbroken)
    (oneLine : OneLine error.message) : IsLine error.echo := by
  refine ⟨error.token.position.echo ++ "Error" ++ error.place ++ ": " ++ error.message, ?_, rfl⟩
  simp only [oneLine_append, Position.oneLine_echo, oneLine_place unbroken, oneLine, and_true]
  decide

theorem RuntimeError.oneLine_message {error : RuntimeError} (oneLine : OneLine error.cause.text) :
    OneLine error.message := by
  unfold message
  split
  · exact oneLine_append.mpr ⟨oneLine_append.mpr ⟨oneLine, by decide⟩, Number.oneLine_natText _⟩
  · exact oneLine

/-- So is a runtime error. -/
theorem RuntimeError.isLine_echo {error : RuntimeError} (oneLine : OneLine error.cause.text) :
    IsLine error.echo := by
  refine ⟨"[line " ++ Number.natText error.position.line ++ "] " ++ error.cause.className ++ ": " ++
    error.message, ?_, rfl⟩
  simp only [oneLine_append, Number.oneLine_natText, Cause.oneLine_className,
    oneLine_message oneLine, and_true]
  decide

/-! ### What lexical errors say -/

/-- What is said about a flaw is one line. -/
theorem Escape.Flaw.oneLine_message (flaw : Flaw) : OneLine flaw.message := by
  cases flaw <;> decide

theorem Escape.oneLine_complaint (text : List Char) : OneLine (complaint text) :=
  (flaw text).oneLine_message

namespace Piece

/-- If the piece is rejected, then with a message on one line. -/
def Told (piece : Piece) : Prop :=
  ∀ message shown, piece.role = .rejected message shown → OneLine message

/-- A piece that is a token has nothing to tell. -/
theorem told_token (kind : TokenKind) (value : Option Value) (text : List Char) :
    Told ⟨.token kind value, text⟩ :=
  nofun

/-- A rejected piece tells its message. -/
theorem told_reject {message : String} (oneLine : OneLine message) (text : List Char) :
    (reject message text).Told := by
  intro told shown rejected
  cases rejected
  exact oneLine

theorem integer_told (digits : List Char) : (integer digits).Told := by
  unfold integer
  split
  · intro told shown rejected
    cases rejected
    decide
  · exact told_token _ _ _

/-- The messages of numbers do not quote the text. -/
theorem cutNumber_told (first : Char) (rest : List Char) : (cutNumber first rest).1.Told := by
  unfold cutNumber
  split
  · split
    · exact told_token _ _ _
    · exact integer_told _
  · exact integer_told _

/-- A broken string is rejected with what is said about its flaw. -/
theorem cutString_told (quote : Char) (rest : List Char) : (cutString quote rest).1.Told := by
  unfold cutString
  simp only
  split
  · exact told_token _ _ _
  · exact told_reject (Escape.oneLine_complaint _) _

theorem cutCharacter_told (quote : Char) (rest : List Char) :
    (cutCharacter quote rest).1.Told := by
  unfold cutCharacter
  simp only
  repeat' split
  · exact told_reject (by decide) _
  · exact told_token _ _ _
  · exact told_reject (by decide) _
  · exact told_reject (by decide) _

/-- An escape sequence that is not closed is rejected with a fixed message. -/
theorem cutEscape_told (bracket : Char) (rest : List Char) : (cutEscape bracket rest).1.Told := by
  unfold cutEscape
  repeat' split
  · exact told_reject (by decide) _
  · exact told_token _ _ _
  · exact told_reject (by decide) _
  · exact told_reject (by decide) _

theorem cutSingle_told (char : Char) (rest : List Char) : (cutSingle char rest).1.Told := by
  unfold cutSingle
  split
  · exact told_token _ _ _
  · exact told_reject (by decide) _

/-- The message about an unexpected character does not quote it. -/
theorem cutOperator_told (char : Char) (rest : List Char) : (cutOperator char rest).1.Told := by
  unfold cutOperator
  repeat' split
  · exact told_token _ _ _
  · exact cutSingle_told _ _
  · exact cutSingle_told _ _

/-- Whatever is cut off, what it tells is one line. -/
theorem cut_told (char : Char) (rest : List Char) : (cut char rest).1.Told := by
  unfold cut
  split
  · exact nofun
  split
  · exact told_token _ _ _
  split
  · exact nofun
  split
  · exact cutNumber_told char rest
  split
  · exact cutString_told char rest
  split
  · exact cutCharacter_told char rest
  split
  · exact cutEscape_told char rest
  split
  · exact told_token _ _ _
  · exact cutOperator_told char rest

end Piece

/-- No lexical error breaks its line. -/
theorem oneLine_of_mem_lex {source : String} {error : LexicalError}
    (member : error ∈ (lex source).errors) : OneLine error.message := by
  rw [lex_eq] at member
  obtain ⟨place, char, rest, read⟩ := exists_cut_of_mem_placed _ _ _ member
  unfold Piece.error? at read
  split at read
  · rename_i message shown rejected
    cases read
    exact Piece.cut_told char rest message shown rejected
  · cases read

/-! ### What syntax errors and runtime errors say -/

/-- Every token stands for itself and breaks no line unless it is a newline. -/
def Pairing.itself : Pairing :=
  ⟨id, Token.Unbroken⟩

/-- Replacing every token by itself replaces tokens steadily, so that the theorems on two parsers
that go abreast speak of one parser. -/
theorem Pairing.itself_steady : Pairing.itself.Steady :=
  ⟨fun _ => rfl, fun _ => rfl, fun _ unbroken => unbroken⟩

theorem Token.matches_itself {token : Token} (unbroken : token.Unbroken) :
    token.Matches .itself token :=
  ⟨unbroken, rfl, rfl, fun _ => rfl⟩

/-- A list of unbroken tokens that ends where it should matches itself. -/
theorem Matching.itself {position : Position} {tokens : List Token} (ends : EndsAt position tokens)
    (unbroken : ∀ token ∈ tokens, token.Unbroken) : Matching .itself tokens tokens := by
  obtain ⟨front, rfl, proper⟩ := ends
  induction front with
  | nil => exact .last (Token.matches_itself (unbroken _ List.mem_cons_self)) rfl
  | cons token rest inductionHypothesis =>
    obtain ⟨first, others⟩ := List.forall_mem_cons.mp unbroken
    obtain ⟨notEnd, laterProper⟩ := List.forall_mem_cons.mp proper
    have behind := inductionHypothesis laterProper others
    by_cases newline : token.kind = .newline
    · exact .newline (Token.matches_itself first) newline behind.dropBlank
    · exact .inside (Token.matches_itself first) (not_or.mpr ⟨newline, notEnd⟩) behind

/-- The tokens of a text match themselves. -/
theorem matching_lex (source : String) :
    Matching .itself (lex source).tokens (lex source).tokens := by
  have tiles : Tiles [] source.toList (lex source).tokens (lex source).errors := by
    rw [lex_eq]
    exact tiles_pieces [] source.toList
  refine .itself tiles.endsAt fun token member notNewline holds => ?_
  exact notNewline ((tiles.mem_newline_iff token member).mp holds)

/-- Every syntax error of a text is echoed as one line. -/
theorem SyntaxError.isLine_echo_of_mem {source : String} {error : SyntaxError}
    (member : error ∈ (Program.parse (lex source).tokens).errors) : IsLine error.echo := by
  obtain ⟨_, _, errors⟩ := Program.parse_related (matching_lex source).dropBlank
  have alike := List.forall₂_same.mp errors error member
  exact isLine_echo alike.token.fine alike.oneLine

/-- Whatever program it is, the runtime error it stops at is echoed as one line. -/
theorem RuntimeError.isLine_echo_of_run {source : String} {program : List Stmt}
    (parsed : (Program.parse (lex source).tokens).program = some program) {fuel : Nat}
    {machine reached : Machine} {error : RuntimeError}
    (stopped : Stmt.execEach fuel program machine = .error (.error error) reached) :
    IsLine error.echo := by
  obtain ⟨_, made, _⟩ := Program.parse_related (matching_lex source).dropBlank
  have replayed := Stmt.execEach_replayed Pairing.itself_steady fuel program
    (Stmt.eachMadeOf_iff.mpr (made program parsed)) machine
  rw [stopped] at replayed
  generalize Stmt.execEach fuel (Stmt.mapEach Pairing.itself.replace program) machine = mirrored
    at replayed
  cases replayed with
  | error _ same =>
    cases same with
    | error token oneLine => exact isLine_echo oneLine

/-! ### Logs -/

namespace Log

/-- As many lines were echoed as there are reports. -/
def Balanced (log : Log) : Prop :=
  log.echoed.toList.count '\n' = log.reports.length

theorem balanced_empty : empty.Balanced := rfl

/-- Where nothing was echoed, nothing was reported. -/
theorem Balanced.reports_of_silent {log : Log} (balanced : log.Balanced)
    (silent : log.echoed = "") : log.reports = [] := by
  rw [Balanced, silent] at balanced
  exact List.length_eq_zero_iff.mp balanced.symm

/-- One more report that was echoed as one line. -/
theorem Balanced.grown {log other : Log} (balanced : log.Balanced) {report : Report} {line : String}
    (isLine : IsLine line) (reports : other.reports = log.reports ++ [report])
    (echoed : other.echoed = log.echoed ++ line) : other.Balanced := by
  unfold Balanced at *
  rw [echoed, reports, String.toList_append, List.count_append, isLine.count_newline, balanced,
    List.length_append]
  rfl

/-- Any number of errors, each echoed as one line. -/
theorem Balanced.foldl {Error : Type} {record : Log → Error → Log} {errors : List Error}
    (kept : ∀ error ∈ errors, ∀ log : Log, log.Balanced → (record log error).Balanced) {log : Log}
    (balanced : log.Balanced) : (errors.foldl record log).Balanced := by
  induction errors generalizing log with
  | nil => exact balanced
  | cons error others inductionHypothesis =>
    obtain ⟨first, later⟩ := List.forall_mem_cons.mp kept
    exact inductionHypothesis later (first log balanced)

end Log

namespace Session

variable {session : Session} (balanced : session.log.Balanced)

include balanced

/-- Checking a text echoes one line for each error found. -/
theorem balanced_checked (source : String) : (session.checked source).log.Balanced := by
  have lexical : ((lex source).errors.foldl Log.addLexical session.log).Balanced :=
    balanced.foldl fun _ member _ before =>
      before.grown (LexicalError.isLine_echo (oneLine_of_mem_lex member)) rfl rfl
  exact lexical.foldl fun _ member _ before =>
    before.grown (SyntaxError.isLine_echo_of_mem member) rfl rfl

/-- Running a text echoes a line for each report and nothing else. -/
theorem balanced_run (fuel : Nat) (dump : Bool) (source : String) :
    (session.run fuel dump source).2.log.Balanced := by
  rcases session.run_cases source fuel dump with ⟨_, skipped⟩ | ⟨program, _, parsed, executed⟩
  · rw [skipped]
    exact balanced_checked balanced source
  · rw [executed]
    have before : (session.shown dump source program).log.Balanced := by rwa [shown_log]
    unfold execute
    split
    · exact before
    · rename_i stopped
      exact before.grown (RuntimeError.isLine_echo_of_run parsed stopped) rfl rfl
    · exact before
    · exact before

end Session

end LineScript
