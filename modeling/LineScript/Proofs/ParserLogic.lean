/-
Module: LineScript.Proofs.ParserLogic
Purpose: Two judgements about parsers, seen through the kinds of the tokens they have in front of
  them, with a rule for every step that parsers are made of.
Trusted boundary: none
Main exports: EndsOnce, Ensures, Sound, Accepts, Passes
-/
import LineScript.Cursor
import LineScript.Proofs.Action
import LineScript.Proofs.Grammar

/-!
`Ensures` is for soundness: whatever a parser passes without a report satisfies a relation. It holds
along error recovery too, since a report is never taken back: a run that reported anything is out of
its scope. `Accepts` is for completeness: on given kinds a parser succeeds, reports nothing, and
leaves kinds that satisfy a condition.
-/

namespace LineScript

open Grammar

/-! ### Lists of kinds that end with the end of the text -/

/-- The end of the text is the last kind, and stands nowhere else. -/
def EndsOnce (kinds : List TokenKind) : Prop :=
  ∃ body, kinds = body ++ [.eof] ∧ .eof ∉ body

namespace EndsOnce

theorem not_nil : ¬ EndsOnce [] := by
  rintro ⟨body, whole, _⟩
  simp at whole

/-- A token in front of the closed list leaves it closed. -/
theorem cons_iff {kind : TokenKind} {rest : List TokenKind} (inside : kind ≠ .eof) :
    EndsOnce (kind :: rest) ↔ EndsOnce rest := by
  constructor
  · rintro ⟨body, whole, once⟩
    cases body with
    | nil => simp_all
    | cons first body =>
      simp only [List.cons_append, List.cons.injEq] at whole
      exact ⟨body, whole.2, fun member => once (List.mem_cons_of_mem first member)⟩
  · rintro ⟨body, rfl, once⟩
    exact ⟨kind :: body, rfl, by simp [once, inside.symm]⟩

/-- Behind the end of the text nothing stands. -/
theorem eof_cons_iff {rest : List TokenKind} : EndsOnce (.eof :: rest) ↔ rest = [] := by
  constructor
  · rintro ⟨body, whole, once⟩
    cases body with
    | nil => simpa using whole
    | cons first body =>
      simp only [List.cons_append, List.cons.injEq] at whole
      exact absurd (whole.1 ▸ List.mem_cons_self) once
  · rintro rfl
    exact ⟨[], rfl, by simp⟩

end EndsOnce

/-- The kinds without the newlines at their front. -/
def trim (kinds : List TokenKind) : List TokenKind :=
  kinds.dropWhile (· == .newline)

@[simp] theorem trim_newline (kinds : List TokenKind) : trim (.newline :: kinds) = trim kinds := rfl

/-- In front of any other token there is nothing to trim. -/
theorem trim_cons {kind : TokenKind} (kinds : List TokenKind) (other : kind ≠ .newline) :
    trim (kind :: kinds) = kind :: kinds := by
  simp [trim, other]

@[simp] theorem trim_trim (kinds : List TokenKind) : trim (trim kinds) = trim kinds := by
  induction kinds with
  | nil => rfl
  | cons kind rest inductionHypothesis =>
    by_cases newline : kind = .newline
    · subst newline
      exact inductionHypothesis
    · rw [trim_cons rest newline, trim_cons rest newline]

/-- Dropping tokens never drops the last one, unless it is asked for. -/
theorem EndsOnce.dropWhile {sort : TokenKind → Bool} (stops : sort .eof = false)
    {kinds : List TokenKind} (ended : EndsOnce kinds) : EndsOnce (kinds.dropWhile sort) := by
  induction kinds with
  | nil => exact ended
  | cons kind rest inductionHypothesis =>
    rw [List.dropWhile_cons]
    split
    · rename_i holds
      have inside : kind ≠ .eof := by
        intro last
        rw [last, stops] at holds
        cases holds
      exact inductionHypothesis ((cons_iff inside).mp ended)
    · exact ended

/-- Blank lines are what trimming drops. -/
theorem reads_blank_trim (kinds : List TokenKind) : Reads .blank kinds (trim kinds) := by
  induction kinds with
  | nil => exact Reads.many_nil []
  | cons kind rest inductionHypothesis =>
    by_cases newline : kind = .newline
    · subst newline
      exact Reads.many_cons (reads_word.mpr rfl) inductionHypothesis
    · rw [trim_cons rest newline]
      exact Reads.many_nil _

/-- Lists that differ by blank lines in front are trimmed alike. -/
theorem trim_eq_of_reads_blank {start rest : List TokenKind} (reads : Reads .blank start rest) :
    trim start = trim rest := by
  refine Reads.many_rec (motive := fun kinds => trim kinds = trim rest) rfl ?_ reads
  intro kinds middle head _ same
  rw [reads_word.mp head, trim_newline, same]

/-! ### The kinds in front of a cursor -/

namespace Cursor

/-- The kinds of the current token and those after it. -/
def kinds (cursor : Cursor) : List TokenKind :=
  cursor.current.kind :: cursor.after.map Token.kind

theorem kinds_ofTokens {tokens : List Token} (ended : EndsOnce (tokens.map Token.kind)) :
    (ofTokens tokens).kinds = tokens.map Token.kind := by
  cases tokens with
  | nil => exact absurd ended EndsOnce.not_nil
  | cons token rest => rfl

/-- Advancing drops one kind. -/
theorem kinds_advance {cursor : Cursor} {kind : TokenKind} {rest : List TokenKind}
    (front : cursor.kinds = kind :: rest) (inside : kind ≠ .eof) (ended : EndsOnce cursor.kinds) :
    cursor.advance.kinds = rest := by
  obtain ⟨before, current, after⟩ := cursor
  simp only [kinds, List.cons.injEq] at front
  obtain ⟨rfl, rfl⟩ := front
  cases after with
  | nil =>
    rw [kinds, EndsOnce.cons_iff inside] at ended
    exact absurd ended EndsOnce.not_nil
  | cons next after =>
    rw [advance, if_neg inside]
    rfl

/-- A cursor on a closed list stays on one. -/
theorem endsOnce_advance {cursor : Cursor} (ended : EndsOnce cursor.kinds) :
    EndsOnce cursor.advance.kinds := by
  by_cases last : cursor.current.kind = .eof
  · rwa [advance, if_pos last]
  · rw [kinds_advance rfl last ended]
    exact (EndsOnce.cons_iff last).mp ended

/-- Passing over tokens drops their kinds. -/
theorem kinds_passWhile {sort : TokenKind → Bool} (stops : sort .eof = false)
    (before : List Token) (current : Token) (after : List Token)
    (ended : EndsOnce (current.kind :: after.map Token.kind)) :
    (passWhile sort before current after).kinds =
      (current.kind :: after.map Token.kind).dropWhile sort := by
  induction after generalizing before current with
  | nil =>
    have last : current.kind = .eof := by
      by_cases inside : current.kind = .eof
      · exact inside
      · exact absurd ((EndsOnce.cons_iff inside).mp ended) EndsOnce.not_nil
    simp [passWhile, kinds, last, stops]
  | cons next rest inductionHypothesis =>
    unfold passWhile
    by_cases holds : sort current.kind = true
    · have inside : current.kind ≠ .eof := by
        intro last
        rw [last, stops] at holds
        cases holds
      rw [if_pos holds, List.dropWhile_cons, if_pos holds]
      exact inductionHypothesis _ _ ((EndsOnce.cons_iff inside).mp ended)
    · rw [if_neg holds, List.dropWhile_cons, if_neg holds]
      rfl

theorem kinds_skipNewlines (cursor : Cursor) (ended : EndsOnce cursor.kinds) :
    cursor.skipNewlines.kinds = trim cursor.kinds :=
  kinds_passWhile rfl _ _ _ ended

theorem endsOnce_skipLine {cursor : Cursor} (ended : EndsOnce cursor.kinds) :
    EndsOnce cursor.skipLine.kinds := by
  unfold skipLine
  have stopped : EndsOnce (passWhile (fun kind => kind != .newline && kind != .eof)
      cursor.before cursor.current cursor.after).kinds := by
    rw [kinds_passWhile rfl _ _ _ ended]
    exact ended.dropWhile rfl
  dsimp only
  split
  · exact endsOnce_advance stopped
  · exact stopped

/-- The tokens left are counted by their kinds. -/
theorem length_kinds (cursor : Cursor) : cursor.kinds.length = cursor.remaining := by
  simp [kinds, remaining]

end Cursor

namespace Parse

/-! ### What a parser passes without a report -/

/-- If the parser succeeds and reports nothing, the relation holds between the kinds in front of it,
its result, and the kinds it leaves. Reports are never taken back, and giving up makes one. -/
structure Ensures {α : Type} (parser : Parse α)
    (relation : List TokenKind → α → List TokenKind → Prop) : Prop where
  ok : ∀ {progress value reached}, parser progress = .ok value reached →
    progress.errors.length ≤ reached.errors.length ∧
      (reached.errors.length = progress.errors.length → EndsOnce progress.cursor.kinds →
        relation progress.cursor.kinds value reached.cursor.kinds ∧
          EndsOnce reached.cursor.kinds)
  error : ∀ {progress error reached}, parser progress = .error error reached →
    progress.errors.length < reached.errors.length

/-- The parser passes only what a phrase derives. -/
abbrev Sound {α : Type} (parser : Parse α) (phrase : Phrase) : Prop :=
  Ensures parser fun start _ rest => Reads phrase start rest

variable {α β : Type}

/-- A parser that ensures something ensures all that follows from it. -/
theorem Ensures.weaken {parser : Parse α} {relation other : List TokenKind → α → List TokenKind → Prop}
    (ensures : Ensures parser relation)
    (implies : ∀ {start value rest}, relation start value rest → other start value rest) :
    Ensures parser other where
  ok := by
    intro progress value reached ending
    obtain ⟨grows, quiet⟩ := ensures.ok ending
    refine ⟨grows, fun same ended => ?_⟩
    obtain ⟨holds, stillEnded⟩ := quiet same ended
    exact ⟨implies holds, stillEnded⟩
  error := ensures.error

/-- A value found without a look at the tokens. -/
theorem Ensures.pure {value : α} {relation : List TokenKind → α → List TokenKind → Prop}
    (holds : ∀ kinds, relation kinds value kinds) :
    Ensures (Pure.pure value : Parse α) relation where
  ok := by
    intro progress found reached ending
    cases ending
    exact ⟨Nat.le_refl _, fun _ ended => ⟨holds _, ended⟩⟩
  error := by
    intro progress error reached ending
    cases ending

/-- Two parsers one after the other. The second may depend on what the first found, and has to
finish what the first began. -/
theorem Ensures.bind {parser : Parse α} {next : α → Parse β}
    {relation : List TokenKind → α → List TokenKind → Prop}
    {whole : List TokenKind → β → List TokenKind → Prop}
    (first : Ensures parser relation)
    (second : ∀ value, Ensures (next value) fun middle result rest =>
      ∀ start, relation start value middle → whole start result rest) :
    Ensures (parser >>= next) whole where
  ok := by
    intro progress result reached ending
    obtain ⟨value, middle, firstEnding, secondEnding⟩ := Action.bind_eq_ok.mp ending
    obtain ⟨firstGrows, firstQuiet⟩ := first.ok firstEnding
    obtain ⟨secondGrows, secondQuiet⟩ := (second value).ok secondEnding
    refine ⟨Nat.le_trans firstGrows secondGrows, fun same ended => ?_⟩
    obtain ⟨holds, middleEnded⟩ := firstQuiet (by omega) ended
    obtain ⟨finishes, stillEnded⟩ := secondQuiet (by omega) middleEnded
    exact ⟨finishes _ holds, stillEnded⟩
  error := by
    intro progress error reached ending
    rcases Action.bind_eq_error.mp ending with firstFails | ⟨value, middle, firstEnding, secondFails⟩
    · exact first.error firstFails
    · exact Nat.lt_of_le_of_lt (first.ok firstEnding).1 ((second value).error secondFails)

/-- The rule for a sequence of phrases, one parser for each. -/
theorem Sound.bind {parser : Parse α} {next : α → Parse β} {phrase : Phrase}
    {phrases : List Phrase} (first : Sound parser phrase)
    (second : ∀ value, Sound (next value) (.all phrases)) :
    Sound (parser >>= next) (.all (phrase :: phrases)) := by
  refine Ensures.bind first fun value => (second value).weaken ?_
  intro middle result rest tail start head
  exact reads_all_cons.mpr ⟨middle, head, tail⟩

/-- The rule for a parser that passes several phrases of a sequence. -/
theorem Sound.bind_all {parser : Parse α} {next : α → Parse β} {phrases others : List Phrase}
    (first : Sound parser (.all phrases)) (second : ∀ value, Sound (next value) (.all others)) :
    Sound (parser >>= next) (.all (phrases ++ others)) := by
  refine Ensures.bind first fun value => (second value).weaken ?_
  intro middle result rest tail start head
  exact (reads_all_append _).mpr ⟨middle, head, tail⟩

/-- A sequence inside a sequence is the sequence of its parts. -/
theorem Sound.nested {parser : Parse α} {phrases others : List Phrase}
    (sound : Sound parser (.all (phrases ++ others))) :
    Sound parser (.all (.all phrases :: others)) := by
  apply sound.weaken
  intro start value rest reads
  exact reads_all_all.mpr reads

theorem Sound.pure (value : α) : Sound (Pure.pure value : Parse α) (.all []) :=
  Ensures.pure fun _ => reads_all_nil.mpr rfl

/-- A single parser for a sequence of one phrase. -/
theorem Sound.last {parser : Parse α} {phrase : Phrase} (sound : Sound parser phrase) :
    Sound parser (.all [phrase]) := by
  apply sound.weaken
  intro start value rest reads
  exact reads_all_cons.mpr ⟨rest, reads, reads_all_nil.mpr rfl⟩

/-- One of the alternatives of a production. -/
theorem Sound.choice {parser : Parse α} {symbol : Symbol} {phrase : Phrase} {phrases : List Phrase}
    (production : rule symbol = .any phrases) (chosen : phrase ∈ phrases)
    (sound : Sound parser phrase) : Sound parser (.part symbol) := by
  apply sound.weaken
  intro start value rest reads
  rw [reads_part, production, reads_any]
  exact ⟨phrase, chosen, reads⟩

/-- What is read by the rule of a symbol is read as the symbol. -/
theorem Sound.production {parser : Parse α} {symbol : Symbol} (sound : Sound parser (rule symbol)) :
    Sound parser (.part symbol) := by
  apply sound.weaken
  intro start value rest reads
  exact reads_part.mpr reads

/-! ### The steps of parsers -/

theorem current_ensures :
    Ensures current fun start token rest => rest = start ∧ start.head? = some token.kind where
  ok := by
    intro progress value reached ending
    cases ending
    exact ⟨Nat.le_refl _, fun _ ended => ⟨⟨rfl, rfl⟩, ended⟩⟩
  error := by
    intro progress error reached ending
    cases ending

theorem remaining_ensures :
    Ensures remaining fun start count rest => rest = start ∧ count = start.length where
  ok := by
    intro progress value reached ending
    cases ending
    exact ⟨Nat.le_refl _, fun _ ended => ⟨⟨rfl, (Cursor.length_kinds _).symm⟩, ended⟩⟩
  error := by
    intro progress error reached ending
    cases ending

/-- Looking at the current token passes nothing. -/
theorem Sound.looking {next : Token → Parse α} {phrase : Phrase}
    (sound : ∀ token, Sound (next token) phrase) : Sound (current >>= next) phrase := by
  refine current_ensures.bind fun token => (sound token).weaken ?_
  intro middle value rest reads start same
  exact same.1 ▸ reads

/-- Counting the tokens left passes nothing. -/
theorem Sound.counting {next : Nat → Parse α} {phrase : Phrase}
    (sound : ∀ bound, Sound (next bound) phrase) : Sound (remaining >>= next) phrase := by
  refine remaining_ensures.bind fun bound => (sound bound).weaken ?_
  intro middle value rest reads start same
  exact same.1 ▸ reads

theorem check_ensures (kinds : List TokenKind) :
    Ensures (check kinds) fun start found rest =>
      rest = start ∧ ∃ kind, start.head? = some kind ∧ found = kinds.contains kind where
  ok := by
    intro progress value reached ending
    cases ending
    exact ⟨Nat.le_refl _, fun _ ended => ⟨⟨rfl, _, rfl, rfl⟩, ended⟩⟩
  error := by
    intro progress error reached ending
    cases ending

/-- Advancing passes the current token, and it stays at the end of the text. -/
theorem advance_ensures :
    Ensures advance fun start token rest =>
      ∀ kind, start.head? = some kind →
        token.kind = kind ∧ (kind ≠ .eof → start = kind :: rest) where
  ok := by
    intro progress value reached ending
    cases ending
    refine ⟨Nat.le_refl _, fun _ ended => ⟨?_, Cursor.endsOnce_advance ended⟩⟩
    intro kind front
    cases front
    refine ⟨rfl, fun inside => ?_⟩
    rw [Cursor.kinds_advance rfl inside ended]
    rfl
  error := by
    intro progress error reached ending
    cases ending

/-- Passing the token that was just looked at. -/
theorem passing_ensures {token : Token} {next : Parse α}
    {whole : List TokenKind → α → List TokenKind → Prop} (inside : token.kind ≠ .eof)
    (ensures : Ensures next fun middle value rest => whole (token.kind :: middle) value rest) :
    Ensures (do let _ ← advance; next) fun middle value rest =>
      ∀ start, (middle = start ∧ start.head? = some token.kind) → whole start value rest := by
  refine advance_ensures.bind fun _ => ensures.weaken ?_
  intro middle value rest holds looked passes start same
  obtain ⟨rfl, front⟩ := same
  rwa [(passes _ front).2 inside]

/-- The parser for blank lines passes them all. -/
theorem skipNewlines_ensures :
    Ensures skipNewlines fun start _ rest => rest = trim start where
  ok := by
    intro progress value reached ending
    cases ending
    refine ⟨Nat.le_refl _, fun _ ended => ?_⟩
    have moved := Cursor.kinds_skipNewlines progress.cursor ended
    exact ⟨moved, moved ▸ ended.dropWhile rfl⟩
  error := by
    intro progress error reached ending
    cases ending

theorem skipNewlines_sound : Sound skipNewlines .blank := by
  apply skipNewlines_ensures.weaken
  intro start _ rest moved
  rw [moved]
  exact reads_blank_trim start

/-- Nothing is said about the line that is passed over. -/
theorem skipLine_ensures : Ensures skipLine fun _ _ _ => True where
  ok := by
    intro progress value reached ending
    cases ending
    exact ⟨Nat.le_refl _, fun _ ended => ⟨trivial, Cursor.endsOnce_skipLine ended⟩⟩
  error := by
    intro progress error reached ending
    cases ending

/-- What follows a report is out of scope. -/
theorem report_ensures (token : Token) (message : String) :
    Ensures (report token message) fun _ _ _ => False where
  ok := by
    intro progress value reached ending
    cases ending
    simp only [Progress.reporting_errors, List.length_append, List.length_singleton]
    exact ⟨by omega, fun same => by omega⟩
  error := by
    intro progress error reached ending
    cases ending

/-- To fail is to report, and of runs that report nothing may be required. -/
theorem fail_ensures (message : String) {relation : List TokenKind → α → List TokenKind → Prop} :
    Ensures (fail message) relation where
  ok := by
    intro progress value reached ending
    cases ending
  error := by
    intro progress error reached ending
    cases ending
    simp

/-- A token that is looked for is found and passed, or the parser stands still. -/
theorem accept_ensures {kinds : List TokenKind} (inside : .eof ∉ kinds) :
    Ensures (accept kinds) fun start found rest =>
      match found with
      | none => rest = start
      | some token => token.kind ∈ kinds ∧ start = token.kind :: rest := by
  refine (check_ensures kinds).bind fun found => ?_
  cases found with
  | false =>
    apply Ensures.pure
    intro middle start same
    exact same.1
  | true =>
    refine advance_ensures.bind fun token => Ensures.pure ?_
    intro rest middle passes start same
    obtain ⟨rfl, kind, front, member⟩ := same
    obtain ⟨rfl, moved⟩ := passes kind front
    have listed : token.kind ∈ kinds := by simpa using member.symm
    exact ⟨listed, moved fun last => inside (last ▸ listed)⟩

/-- A token that is expected and found was passed. -/
theorem expect_ensures {kind : TokenKind} (message : String) (inside : kind ≠ .eof) :
    Ensures (expect kind message) fun start token rest =>
      token.kind = kind ∧ start = kind :: rest := by
  refine (check_ensures [kind]).bind fun found => ?_
  cases found with
  | false => exact fail_ensures message
  | true =>
    apply advance_ensures.weaken
    intro middle token rest passes start same
    obtain ⟨rfl, other, front, member⟩ := same
    have expected : other = kind := by simpa using member.symm
    rw [expected] at front
    obtain ⟨sameKind, moved⟩ := passes kind front
    exact ⟨sameKind, moved inside⟩

theorem expect_sound {kind : TokenKind} (message : String) (inside : kind ≠ .eof) :
    Sound (expect kind message) (.word kind) := by
  apply (expect_ensures message inside).weaken
  intro start token rest passes
  exact reads_word.mpr passes.2

theorem endLine_sound (message : String) : Sound (endLine message) (.word .newline) := by
  refine Ensures.bind (expect_sound message (by decide)) fun _ => Ensures.pure ?_
  intro rest start reads
  exact reads

theorem expectAll_sound (message : String) {kinds : List TokenKind} (inside : .eof ∉ kinds) :
    Sound (expectAll message kinds) (.all (kinds.map .word)) := by
  induction kinds with
  | nil => exact Sound.pure ()
  | cons kind rest inductionHypothesis =>
    rw [List.mem_cons, not_or] at inside
    exact (expect_sound message (Ne.symm inside.1)).bind fun _ => inductionHypothesis inside.2

/-- A phrase that may be missing, known by its first token. -/
theorem Sound.optional {kind : TokenKind} {nothing : Parse α} {next : Token → Parse α}
    {phrases : List Phrase} (inside : kind ≠ .eof) (without : Sound nothing (.all []))
    (within : ∀ token, Sound (next token) (.all phrases)) :
    Sound (do
        match ← accept [kind] with
        | none => nothing
        | some token => next token)
      (.optional (.all (.word kind :: phrases))) := by
  refine (accept_ensures (by simpa using inside.symm)).bind fun found => ?_
  cases found with
  | none =>
    apply without.weaken
    intro middle value rest reads start same
    exact reads_optional.mpr (.inl (same.symm.trans (reads_all_nil.mp reads)))
  | some token =>
    apply (within token).weaken
    intro middle value rest reads start accepted
    obtain ⟨listed, rfl⟩ := accepted
    have sign : token.kind = kind := by simpa using listed
    refine reads_optional.mpr (.inr (reads_all_cons.mpr ⟨middle, ?_, reads⟩))
    rw [sign]
    exact reads_word.mpr rfl

/-- One of two phrases, chosen by the current token. -/
theorem Sound.branch {kinds : List TokenKind} {yes no : Parse α} {first second : Phrase}
    (yesSound : Sound yes first) (noSound : Sound no second) :
    Sound (do if ← check kinds then yes else no) (.any [first, second]) := by
  refine (check_ensures kinds).bind fun found => ?_
  cases found with
  | true =>
    apply yesSound.weaken
    intro middle value rest reads start same
    exact reads_any.mpr ⟨first, by simp, same.1 ▸ reads⟩
  | false =>
    apply noSound.weaken
    intro middle value rest reads start same
    exact reads_any.mpr ⟨second, by simp, same.1 ▸ reads⟩

/-- Recovery only matters after a report, so a recovered parser passes what it would pass alone. -/
theorem recover_ensures {item : Parse α} {relation : List TokenKind → α → List TokenKind → Prop}
    (ensures : Ensures item relation) :
    Ensures (recover item) fun start found rest =>
      ∃ value, found = some value ∧ relation start value rest where
  ok := by
    intro progress found reached ending
    unfold recover at ending
    cases inner : item progress with
    | ok value middle =>
      rw [inner] at ending
      cases ending
      obtain ⟨grows, quiet⟩ := ensures.ok inner
      refine ⟨grows, fun same ended => ?_⟩
      obtain ⟨holds, stillEnded⟩ := quiet same ended
      exact ⟨⟨value, rfl, holds⟩, stillEnded⟩
    | error error middle =>
      rw [inner] at ending
      cases ending
      have grows := ensures.error inner
      exact ⟨Nat.le_of_lt grows, fun same => absurd same (Nat.ne_of_gt grows)⟩
  error := by
    intro progress error reached ending
    unfold recover at ending
    cases inner : item progress with
    | ok value middle =>
      rw [inner] at ending
      cases ending
    | error error middle =>
      rw [inner] at ending
      cases ending

/-! ### What a parser accepts -/

/-- On the given kinds the parser succeeds and reports nothing; what it finds and the kinds it
leaves are as required. -/
def Accepts {α : Type} (parser : Parse α) (start : List TokenKind)
    (leaves : α → List TokenKind → Prop) : Prop :=
  ∀ progress, progress.cursor.kinds = start → EndsOnce start →
    ∃ value reached, parser progress = .ok value reached ∧ reached.errors = progress.errors ∧
      EndsOnce reached.cursor.kinds ∧ leaves value reached.cursor.kinds

/-- The parser accepts some kinds and leaves exactly the given rest. -/
abbrev Passes {α : Type} (parser : Parse α) (start rest : List TokenKind) : Prop :=
  Accepts parser start fun _ left => left = rest

/-- What is accepted with some ending is accepted with any weaker one. -/
theorem Accepts.weaken {parser : Parse α} {start : List TokenKind}
    {leaves other : α → List TokenKind → Prop} (accepts : Accepts parser start leaves)
    (implies : ∀ {value left}, leaves value left → other value left) :
    Accepts parser start other := by
  intro progress front ended
  obtain ⟨value, reached, ending, quiet, stillEnded, holds⟩ := accepts progress front ended
  exact ⟨value, reached, ending, quiet, stillEnded, implies holds⟩

theorem Accepts.nil {parser : Parse α} {leaves : α → List TokenKind → Prop} :
    Accepts parser [] leaves := by
  intro progress _ ended
  exact absurd ended EndsOnce.not_nil

theorem Accepts.pure {value : α} {start : List TokenKind} {leaves : α → List TokenKind → Prop}
    (holds : leaves value start) : Accepts (Pure.pure value : Parse α) start leaves := by
  intro progress front ended
  subst front
  exact ⟨value, progress, rfl, rfl, ended, holds⟩

/-- Two parsers accept one after the other if the second one accepts what the first one leaves. -/
theorem Accepts.bind {parser : Parse α} {next : α → Parse β} {start : List TokenKind}
    {leaves : α → List TokenKind → Prop} {final : β → List TokenKind → Prop}
    (first : Accepts parser start leaves)
    (second : ∀ value middle, leaves value middle → Accepts (next value) middle final) :
    Accepts (parser >>= next) start final := by
  intro progress front ended
  obtain ⟨value, middle, firstEnding, firstQuiet, middleEnded, holds⟩ := first progress front ended
  obtain ⟨result, reached, secondEnding, secondQuiet, stillEnded, concludes⟩ :=
    second value _ holds middle rfl middleEnded
  refine ⟨result, reached, ?_, secondQuiet.trans firstQuiet, stillEnded, concludes⟩
  rw [Action.bind_of_ok firstEnding]
  exact secondEnding

/-- The rule for a step that leaves exactly the given kinds. -/
theorem Passes.bind {parser : Parse α} {next : α → Parse β} {start middle : List TokenKind}
    {final : β → List TokenKind → Prop} (first : Passes parser start middle)
    (second : ∀ value, Accepts (next value) middle final) :
    Accepts (parser >>= next) start final := by
  apply Accepts.bind first
  intro value left same
  subst same
  exact second value

theorem current_accepts {kind : TokenKind} {rest : List TokenKind} :
    Accepts current (kind :: rest) fun token left => token.kind = kind ∧ left = kind :: rest := by
  intro progress front ended
  refine ⟨_, progress, rfl, rfl, front ▸ ended, ?_, front⟩
  exact (List.cons.inj front).1

/-- Looking at the current token passes nothing. -/
theorem Accepts.looking {next : Token → Parse α} {kind : TokenKind} {rest : List TokenKind}
    {leaves : α → List TokenKind → Prop}
    (accepts : ∀ token, token.kind = kind → Accepts (next token) (kind :: rest) leaves) :
    Accepts (current >>= next) (kind :: rest) leaves := by
  apply current_accepts.bind
  intro token left same
  obtain ⟨sameKind, rfl⟩ := same
  exact accepts token sameKind

theorem remaining_accepts {start : List TokenKind} :
    Accepts remaining start fun count left => count = start.length ∧ left = start := by
  intro progress front ended
  refine ⟨_, progress, rfl, rfl, front ▸ ended, ?_, front⟩
  rw [← front, Cursor.length_kinds]

/-- Counting the tokens left passes nothing. -/
theorem Accepts.counting {next : Nat → Parse α} {start : List TokenKind}
    {leaves : α → List TokenKind → Prop} (accepts : Accepts (next start.length) start leaves) :
    Accepts (remaining >>= next) start leaves := by
  apply remaining_accepts.bind
  intro count left same
  obtain ⟨rfl, rfl⟩ := same
  exact accepts

theorem check_accepts {kinds : List TokenKind} {kind : TokenKind} {rest : List TokenKind} :
    Accepts (check kinds) (kind :: rest) fun found left =>
      found = kinds.contains kind ∧ left = kind :: rest := by
  intro progress front ended
  refine ⟨_, progress, rfl, rfl, front ▸ ended, ?_, front⟩
  rw [(List.cons.inj front).1]

theorem advance_passes {kind : TokenKind} {rest : List TokenKind} (inside : kind ≠ .eof) :
    Passes advance (kind :: rest) rest := by
  intro progress front ended
  have moved := Cursor.kinds_advance front inside (front ▸ ended)
  refine ⟨_, _, rfl, rfl, ?_, moved⟩
  exact moved ▸ (EndsOnce.cons_iff inside).mp ended

/-- Blank lines in front of anything are accepted. -/
theorem skipNewlines_passes {start : List TokenKind} : Passes skipNewlines start (trim start) := by
  intro progress front ended
  have moved := Cursor.kinds_skipNewlines progress.cursor (front ▸ ended)
  rw [front] at moved
  refine ⟨_, _, rfl, rfl, ?_, moved⟩
  exact moved ▸ ended.dropWhile rfl

/-- Choosing by the current token, which is of one of the kinds. -/
theorem Accepts.checked {kinds : List TokenKind} {yes no : Parse α} {kind : TokenKind}
    {rest : List TokenKind} {leaves : α → List TokenKind → Prop} (listed : kind ∈ kinds)
    (accepts : Accepts yes (kind :: rest) leaves) :
    Accepts (do if ← check kinds then yes else no) (kind :: rest) leaves := by
  apply check_accepts.bind
  intro found left same
  obtain ⟨rfl, rfl⟩ := same
  rwa [if_pos (by simpa using listed)]

/-- Choosing by the current token, which is of none of the kinds. -/
theorem Accepts.unchecked {kinds : List TokenKind} {yes no : Parse α} {kind : TokenKind}
    {rest : List TokenKind} {leaves : α → List TokenKind → Prop} (unlisted : kind ∉ kinds)
    (accepts : Accepts no (kind :: rest) leaves) :
    Accepts (do if ← check kinds then yes else no) (kind :: rest) leaves := by
  apply check_accepts.bind
  intro found left same
  obtain ⟨rfl, rfl⟩ := same
  rwa [if_neg (by simpa using unlisted)]

/-- A token that is looked for is accepted. -/
theorem accept_listed {kinds : List TokenKind} {kind : TokenKind} {rest : List TokenKind}
    (inside : kind ≠ .eof) (listed : kind ∈ kinds) :
    Accepts (accept kinds) (kind :: rest) fun found left =>
      found.isSome ∧ left = rest := by
  refine Accepts.checked listed ((advance_passes inside).bind fun token => ?_)
  exact Accepts.pure ⟨rfl, rfl⟩

/-- Any other token is left where it is. -/
theorem accept_unlisted {kinds : List TokenKind} {kind : TokenKind} {rest : List TokenKind}
    (unlisted : kind ∉ kinds) :
    Accepts (accept kinds) (kind :: rest) fun found left =>
      found = none ∧ left = kind :: rest :=
  Accepts.unchecked unlisted (Accepts.pure ⟨rfl, rfl⟩)

theorem expect_passes {kind : TokenKind} {message : String} {rest : List TokenKind}
    (inside : kind ≠ .eof) : Passes (expect kind message) (kind :: rest) rest :=
  Accepts.checked List.mem_cons_self (advance_passes inside)

theorem endLine_passes {message : String} {rest : List TokenKind} :
    Passes (endLine message) (.newline :: rest) rest :=
  (expect_passes (by decide)).bind fun _ => Accepts.pure rfl

/-- Expected words are accepted if they are the ones ahead. -/
theorem expectAll_passes {message : String} (kinds : List TokenKind) {rest : List TokenKind}
    (inside : .eof ∉ kinds) :
    Passes (expectAll message kinds) (kinds ++ rest) rest := by
  induction kinds with
  | nil => exact Accepts.pure rfl
  | cons kind others inductionHypothesis =>
    rw [List.mem_cons, not_or] at inside
    exact (expect_passes (Ne.symm inside.1)).bind fun _ => inductionHypothesis inside.2

/-- Where there is no error, recovery does not change what is accepted. -/
theorem recover_accepts {item : Parse α} {start : List TokenKind}
    {leaves : α → List TokenKind → Prop} (accepts : Accepts item start leaves) :
    Accepts (recover item) start fun found left =>
      ∃ value, found = some value ∧ leaves value left := by
  intro progress front ended
  obtain ⟨value, reached, ending, quiet, stillEnded, holds⟩ := accepts progress front ended
  refine ⟨some value, reached, ?_, quiet, stillEnded, value, rfl, holds⟩
  unfold recover
  rw [ending]

end Parse

end LineScript
