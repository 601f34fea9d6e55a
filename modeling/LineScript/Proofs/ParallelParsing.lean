/-
Module: LineScript.Proofs.ParallelParsing
Purpose: Parsers that run side by side on lists of tokens which differ in blank lines only.
Trusted boundary: none
Main exports: Pairing, Matching, Abreast, Agree, Parallel, Parallel.expectLine, Parallel.recover
-/
import LineScript.Cursor
import LineScript.Proofs.Action
import LineScript.Proofs.OneLine
import Mathlib.Data.List.Forall2
import Mathlib.Order.Basic

/-!
Two lists of tokens match if they hold the same tokens, up to a replacement, except that behind a
newline one may have newlines which the other has not. Two parsers that run side by side on such
lists stand abreast, at tokens that match, or abreast past blank lines, where a newline was just
passed and only blank lines can keep them apart. Every parser passes blank lines before it looks at
a token behind a newline, so the parsers find the same, report the same, and give up together.

A parser is bounded by the number of tokens left, which is not the same number in both runs. The
judgement `Parallel` therefore keeps account of the tokens left, so that neither run ends at its
bound.
-/

namespace LineScript

/-- A kind that ends a line: a newline or the end of the text. -/
def TokenKind.EndsLine (kind : TokenKind) : Prop :=
  kind = .newline ∨ kind = .eof

instance : DecidablePred TokenKind.EndsLine :=
  fun _ => inferInstanceAs (Decidable (_ ∨ _))

/-- The tokens without the newlines at their front. -/
def dropBlank (tokens : List Token) : List Token :=
  tokens.dropWhile fun token => token.kind == .newline

theorem dropBlank_newline {token : Token} (newline : token.kind = .newline) (rest : List Token) :
    dropBlank (token :: rest) = dropBlank rest := by
  simp [dropBlank, newline]

theorem dropBlank_other {token : Token} (other : token.kind ≠ .newline) (rest : List Token) :
    dropBlank (token :: rest) = token :: rest := by
  simp [dropBlank, other]

/-- How the tokens of two lists stand for each other: those of the first satisfy a condition, and
those of the second are theirs, replaced. -/
structure Pairing where
  replace : Token → Token
  fine : Token → Prop

section Matching

variable (pairing : Pairing)

/-- The first token is fine, and the second stands for it: unless they end a line, it is the first
one replaced. -/
structure Token.Matches (one two : Token) : Prop where
  fine : pairing.fine one
  kind : two.kind = one.kind
  literal : two.literal = one.literal
  replaced : ¬ one.kind.EndsLine → two = pairing.replace one

/-- The tokens match and are of one of some kinds. -/
def Token.Same (kinds : List TokenKind) (one two : Token) : Prop :=
  one.Matches pairing two ∧ one.kind ∈ kinds

/-- The second error is the first one reported at the other token. No message breaks its line. -/
structure SyntaxError.Matches (one two : SyntaxError) : Prop where
  token : one.token.Matches pairing two.token
  message : two.message = one.message
  oneLine : OneLine one.message

/-- Two lists of tokens that match and end with the end of the text. Behind a newline, each of them
may go on with newlines of its own. -/
inductive Matching : List Token → List Token → Prop where
  | last {one two : Token} (pair : one.Matches pairing two) (ends : one.kind = .eof) :
      Matching [one] [two]
  | inside {one two : Token} {rest others : List Token} (pair : one.Matches pairing two)
      (inLine : ¬ one.kind.EndsLine) (behind : Matching rest others) :
      Matching (one :: rest) (two :: others)
  | newline {one two : Token} {rest others : List Token} (pair : one.Matches pairing two)
      (breaks : one.kind = .newline) (behind : Matching (dropBlank rest) (dropBlank others)) :
      Matching (one :: rest) (two :: others)

end Matching

namespace Matching

variable {pairing : Pairing} {one two : List Token}

/-- Behind their blank lines two lists match as before. -/
theorem dropBlank (matching : Matching pairing one two) :
    Matching pairing (dropBlank one) (LineScript.dropBlank two) := by
  cases matching with
  | last pair ends =>
    have other : (TokenKind.eof : TokenKind) ≠ .newline := by decide
    rw [dropBlank_other (ends ▸ other), dropBlank_other (pair.kind ▸ ends ▸ other)]
    exact .last pair ends
  | inside pair inLine behind =>
    rw [dropBlank_other fun newline => inLine (.inl newline),
      dropBlank_other fun newline => inLine (.inl (pair.kind ▸ newline))]
    exact .inside pair inLine behind
  | newline pair breaks behind =>
    rwa [dropBlank_newline breaks, dropBlank_newline (pair.kind.trans breaks)]

theorem ne_nil (matching : Matching pairing one two) : one ≠ [] ∧ two ≠ [] := by
  cases matching <;> simp

/-- Lists that match do so in their first tokens. -/
theorem head {first second : Token} {rest others : List Token}
    (matching : Matching pairing (first :: rest) (second :: others)) :
    first.Matches pairing second := by
  cases matching <;> assumption

/-- What follows the first tokens of two lists, by the kind of these tokens. -/
theorem tail_cases {first second : Token} {rest others : List Token}
    (matching : Matching pairing (first :: rest) (second :: others)) :
    (first.kind = .eof ∧ rest = [] ∧ others = []) ∨
      (¬ first.kind.EndsLine ∧ Matching pairing rest others) ∨
      first.kind = .newline ∧
        Matching pairing (LineScript.dropBlank rest) (LineScript.dropBlank others) := by
  cases matching with
  | last pair ends => exact .inl ⟨ends, rfl, rfl⟩
  | inside pair inLine behind => exact .inr (.inl ⟨inLine, behind⟩)
  | newline pair breaks behind => exact .inr (.inr ⟨breaks, behind⟩)

/-- What is left of the lines at whose front the lists stand. -/
theorem dropWhile (sort : TokenKind → Bool) (stops : sort .newline = false ∧ sort .eof = false)
    (matching : Matching pairing one two) :
    Matching pairing (one.dropWhile fun token => sort token.kind)
      (two.dropWhile fun token => sort token.kind) := by
  induction matching with
  | last pair ends =>
    simp only [List.dropWhile_cons, pair.kind, ends, stops.2]
    exact .last pair ends
  | inside pair inLine behind inductionHypothesis =>
    simp only [List.dropWhile_cons, pair.kind]
    split
    · exact inductionHypothesis
    · exact .inside pair inLine behind
  | newline pair breaks behind =>
    simp only [List.dropWhile_cons, pair.kind, breaks, stops.1]
    exact .newline pair breaks behind

end Matching

/-! ### Places of two parsers -/

namespace Cursor

/-- The current token and those after it. -/
def ahead (cursor : Cursor) : List Token :=
  cursor.current :: cursor.after

/-- Advancing inside a line shows the tokens behind. -/
theorem ahead_advance {cursor : Cursor} (inside : cursor.current.kind ≠ .eof)
    (more : cursor.after ≠ []) : cursor.advance.ahead = cursor.after := by
  unfold advance
  rw [if_neg inside]
  split
  · contradiction
  · rename_i next rest after
    rw [after]
    rfl

/-- At the end of the text there is nowhere to go. -/
theorem advance_of_eof {cursor : Cursor} (ended : cursor.current.kind = .eof) :
    cursor.advance = cursor := by
  rw [advance, if_pos ended]

theorem ahead_passWhile (sort : TokenKind → Bool) (before : List Token) (current : Token)
    (after : List Token)
    (stops : (current :: after).dropWhile (fun token => sort token.kind) ≠ []) :
    (passWhile sort before current after).ahead =
      (current :: after).dropWhile fun token => sort token.kind := by
  induction after generalizing before current with
  | nil =>
    by_cases sorted : sort current.kind = true
    · simp [sorted] at stops
    · simp [passWhile, ahead, sorted]
  | cons next rest inductionHypothesis =>
    rw [List.dropWhile_cons] at stops ⊢
    unfold passWhile
    split
    · rename_i sorted
      rw [if_pos sorted] at stops
      exact inductionHypothesis _ _ stops
    · rfl

theorem remaining_passUntilResumption_le (previous : Token) (before : List Token) (current : Token)
    (after : List Token) :
    (passUntilResumption previous before current after).remaining ≤ after.length + 1 := by
  induction after generalizing previous before current with
  | nil => exact Nat.le_refl _
  | cons next rest inductionHypothesis =>
    unfold passUntilResumption
    split
    · exact Nat.le_refl _
    · exact Nat.le_succ_of_le (inductionHypothesis _ _ _)

/-- At most so many tokens are left in the one run and in the other. -/
def Within (room : Nat × Nat) (one two : Cursor) : Prop :=
  (one.remaining, two.remaining) ≤ room

/-- The room that is left when a token was passed. -/
def less (room : Nat × Nat) : Nat × Nat :=
  (room.1 - 1, room.2 - 1)

theorem less_le (room : Nat × Nat) : less room ≤ room :=
  ⟨Nat.sub_le _ _, Nat.sub_le _ _⟩

theorem less_le_of_le {room larger : Nat × Nat} (fits : room ≤ larger) : less room ≤ larger :=
  ⟨Nat.le_trans (less_le room).1 fits.1, Nat.le_trans (less_le room).2 fits.2⟩

theorem less_le_less {room larger : Nat × Nat} (fits : room ≤ larger) : less room ≤ less larger :=
  ⟨Nat.sub_le_sub_right fits.1 1, Nat.sub_le_sub_right fits.2 1⟩

theorem Within.mono {room larger : Nat × Nat} {one two : Cursor} (within : Within room one two)
    (fits : room ≤ larger) : Within larger one two :=
  ⟨Nat.le_trans within.1 fits.1, Nat.le_trans within.2 fits.2⟩

/-- When both parsers pass a token, both have one less to go. -/
theorem Within.less {room : Nat × Nat} {one two reached mirror : Cursor}
    (within : Within room one two)
    (passed : reached.remaining + 1 = one.remaining ∧ mirror.remaining + 1 = two.remaining) :
    Within (less room) reached mirror :=
  have fits : reached.remaining + 1 ≤ room.1 ∧ mirror.remaining + 1 ≤ room.2 :=
    passed.1 ▸ passed.2 ▸ within
  ⟨Nat.le_sub_one_of_lt fits.1, Nat.le_sub_one_of_lt fits.2⟩

variable (pairing : Pairing)

/-- The parsers stand at tokens that match, and so do the lists behind them. -/
def Abreast (one two : Cursor) : Prop :=
  Matching pairing one.ahead two.ahead

/-- The parsers stand abreast once blank lines are passed. -/
def AbreastPastBlank (one two : Cursor) : Prop :=
  Matching pairing (dropBlank one.ahead) (dropBlank two.ahead)

/-- The parsers stand abreast, at tokens of a given sort. -/
def Seeing (sort : TokenKind → Prop) (one two : Cursor) : Prop :=
  Abreast pairing one two ∧ sort one.current.kind

variable {pairing} {one two : Cursor}

/-- Two parsers that stand abreast do so past blank lines. -/
theorem Abreast.pastBlank (abreast : Abreast pairing one two) :
    AbreastPastBlank pairing one two :=
  Matching.dropBlank abreast

/-- They see tokens that match. -/
theorem Abreast.current (abreast : Abreast pairing one two) :
    one.current.Matches pairing two.current :=
  Matching.head abreast

/-- Behind a token that is not the last one, both parsers have tokens left. -/
theorem Abreast.after_ne_nil (abreast : Abreast pairing one two)
    (inside : one.current.kind ≠ .eof) : one.after ≠ [] ∧ two.after ≠ [] := by
  rcases Matching.tail_cases abreast with ⟨ended, _⟩ | ⟨_, behind⟩ | ⟨_, behind⟩
  · exact absurd ended inside
  · exact behind.ne_nil
  · refine ⟨?_, ?_⟩
    · intro none
      exact behind.ne_nil.1 (by rw [none]; rfl)
    · intro none
      exact behind.ne_nil.2 (by rw [none]; rfl)

theorem Abreast.ahead_advance (abreast : Abreast pairing one two)
    (inside : one.current.kind ≠ .eof) :
    one.advance.ahead = one.after ∧ two.advance.ahead = two.after :=
  have more := abreast.after_ne_nil inside
  ⟨Cursor.ahead_advance inside more.1,
    Cursor.ahead_advance (abreast.current.kind ▸ inside) more.2⟩

theorem Abreast.remaining_advance (abreast : Abreast pairing one two)
    (inside : one.current.kind ≠ .eof) :
    one.advance.remaining + 1 = one.remaining ∧ two.advance.remaining + 1 = two.remaining := by
  obtain ⟨first, second⟩ := abreast.ahead_advance inside
  exact ⟨congrArg (·.length + 1) first, congrArg (·.length + 1) second⟩

/-- Inside a line both may pass a token and stand abreast. -/
theorem Abreast.advance_inside (abreast : Abreast pairing one two)
    (inLine : ¬ one.current.kind.EndsLine) : Abreast pairing one.advance two.advance := by
  obtain ⟨first, second⟩ := abreast.ahead_advance fun ended => inLine (.inr ended)
  unfold Abreast
  rw [first, second]
  rcases Matching.tail_cases abreast with ⟨ended, _⟩ | ⟨_, behind⟩ | ⟨breaks, _⟩
  · exact absurd (.inr ended) inLine
  · exact behind
  · exact absurd (.inl breaks) inLine

/-- At the end of a line they do so up to blank lines, of which each list has its own. -/
theorem Abreast.advance_newline (abreast : Abreast pairing one two)
    (breaks : one.current.kind = .newline) :
    AbreastPastBlank pairing one.advance two.advance := by
  obtain ⟨first, second⟩ := abreast.ahead_advance (by simp [breaks])
  unfold AbreastPastBlank
  rw [first, second]
  rcases Matching.tail_cases abreast with ⟨ended, _⟩ | ⟨inLine, _⟩ | ⟨_, behind⟩
  · cases ended.symm.trans breaks
  · exact absurd (.inl breaks) inLine
  · exact behind

theorem Abreast.advance (abreast : Abreast pairing one two) :
    AbreastPastBlank pairing one.advance two.advance := by
  by_cases breaks : one.current.kind = .newline
  · exact abreast.advance_newline breaks
  · by_cases ended : one.current.kind = .eof
    · rw [advance_of_eof ended, advance_of_eof (abreast.current.kind.trans ended)]
      exact abreast.pastBlank
    · exact (abreast.advance_inside (not_or.mpr ⟨breaks, ended⟩)).pastBlank

/-! #### Passing blank lines, and what recovery passes -/

theorem ahead_skipNewlines {cursor : Cursor} (stops : dropBlank cursor.ahead ≠ []) :
    cursor.skipNewlines.ahead = dropBlank cursor.ahead :=
  ahead_passWhile (· == .newline) _ _ _ stops

/-- Once the blank lines are passed they stand abreast again. -/
theorem AbreastPastBlank.skipNewlines (near : AbreastPastBlank pairing one two) :
    Abreast pairing one.skipNewlines two.skipNewlines := by
  unfold Abreast
  rw [ahead_skipNewlines near.ne_nil.1, ahead_skipNewlines near.ne_nil.2]
  exact near

theorem remaining_passWhile_le (sort : TokenKind → Bool) (before : List Token) (current : Token)
    (after : List Token) :
    (passWhile sort before current after).remaining ≤ after.length + 1 := by
  induction after generalizing before current with
  | nil => exact Nat.le_refl _
  | cons next rest inductionHypothesis =>
    unfold passWhile
    split
    · exact Nat.le_succ_of_le (inductionHypothesis _ _)
    · exact Nat.le_refl _

theorem remaining_skipNewlines_le (cursor : Cursor) :
    cursor.skipNewlines.remaining ≤ cursor.remaining :=
  remaining_passWhile_le _ _ _ _

theorem remaining_advance_le (cursor : Cursor) : cursor.advance.remaining ≤ cursor.remaining := by
  unfold advance
  split
  · exact Nat.le_refl _
  · split
    · exact Nat.le_refl _
    · rename_i next rest after
      simp [remaining, after]

/-- The rest of a line, up to the newline or the end of the text. -/
def lineEnd (cursor : Cursor) : Cursor :=
  passWhile (fun kind => kind != .newline && kind != .eof) cursor.before cursor.current cursor.after

/-- To skip a line is to go to its end and over the newline, if there is one. -/
theorem skipLine_eq (cursor : Cursor) :
    cursor.skipLine =
      if cursor.lineEnd.current.kind = .newline then cursor.lineEnd.advance else cursor.lineEnd :=
  rfl

/-- The ends of matching lines are reached abreast. -/
theorem Abreast.lineEnd (abreast : Abreast pairing one two) :
    Abreast pairing one.lineEnd two.lineEnd := by
  have stopped :=
    Matching.dropWhile (fun kind => kind != .newline && kind != .eof) ⟨rfl, rfl⟩ abreast
  unfold Abreast Cursor.lineEnd
  rw [ahead_passWhile _ _ _ _ stopped.ne_nil.1, ahead_passWhile _ _ _ _ stopped.ne_nil.2]
  exact stopped

theorem Abreast.skipLine (abreast : Abreast pairing one two) :
    AbreastPastBlank pairing one.skipLine two.skipLine := by
  have ended := abreast.lineEnd
  rw [skipLine_eq, skipLine_eq, ended.current.kind]
  split
  · exact ended.advance
  · exact ended.pastBlank

theorem remaining_skipLine_le (cursor : Cursor) : cursor.skipLine.remaining ≤ cursor.remaining := by
  have ended : cursor.lineEnd.remaining ≤ cursor.remaining := remaining_passWhile_le _ _ _ _
  rw [skipLine_eq]
  split
  · exact Nat.le_trans (remaining_advance_le _) ended
  · exact ended

/-- Passing the rest of a line passes the current token, if there are tokens behind it. -/
theorem remaining_skipLine_lt {cursor : Cursor} (inside : cursor.current.kind ≠ .eof)
    (more : cursor.after ≠ []) : cursor.skipLine.remaining < cursor.remaining := by
  obtain ⟨before, current, after⟩ := cursor
  obtain ⟨next, rest, rfl⟩ := List.exists_cons_of_ne_nil more
  by_cases breaks : current.kind = .newline
  · simp [skipLine, passWhile, advance, remaining, breaks]
  · have passed : lineEnd ⟨before, current, next :: rest⟩ =
        lineEnd ⟨current :: before, next, rest⟩ := by
      rw [lineEnd, passWhile, if_pos (by simpa using ⟨breaks, inside⟩)]
      rfl
    rw [skipLine_eq, passed, ← skipLine_eq]
    exact Nat.lt_succ_of_le (remaining_skipLine_le _)

/-- Behind a newline the recovery stops at once. -/
theorem passUntilResumption_behind_newline {previous : Token} (newline : previous.kind = .newline)
    (before : List Token) (current : Token) (after : List Token) :
    passUntilResumption previous before current after = ⟨before, current, after⟩ := by
  cases after <;> simp [passUntilResumption, newline]

/-- Resumption is looked for line by line, so it is found at the same place in both runs or behind
the same newline. -/
theorem passUntilResumption_pastBlank {previous other current mirror : Token}
    {after behind : List Token} (before passed : List Token)
    (matching : Matching pairing (current :: after) (mirror :: behind))
    (kind : other.kind = previous.kind) :
    AbreastPastBlank pairing (passUntilResumption previous before current after)
      (passUntilResumption other passed mirror behind) := by
  induction after generalizing previous other current mirror before passed behind with
  | nil =>
    rcases matching.tail_cases with ⟨_, _, rfl⟩ | ⟨_, rest⟩ | ⟨_, rest⟩
    · exact matching.dropBlank
    · exact absurd rfl rest.ne_nil.1
    · exact absurd rfl rest.ne_nil.1
  | cons next later inductionHypothesis =>
    have pair := matching.head
    obtain ⟨nextMirror, laterMirror, rfl⟩ : ∃ first others, behind = first :: others := by
      rcases matching.tail_cases with ⟨_, none, _⟩ | ⟨_, rest⟩ | ⟨_, rest⟩
      · cases none
      · exact List.exists_cons_of_ne_nil rest.ne_nil.2
      · refine List.exists_cons_of_ne_nil ?_
        rintro rfl
        exact rest.ne_nil.2 rfl
    rw [passUntilResumption, passUntilResumption, pair.kind, kind]
    split
    · exact matching.dropBlank
    · rcases matching.tail_cases with ⟨_, none, _⟩ | ⟨_, rest⟩ | ⟨breaks, rest⟩
      · cases none
      · exact inductionHypothesis _ _ rest pair.kind
      · rw [passUntilResumption_behind_newline breaks,
          passUntilResumption_behind_newline (pair.kind.trans breaks)]
        exact rest

/-- Recovery takes both parsers to the same place, up to blank lines: it looks at kinds alone. -/
theorem Abreast.synchronize (abreast : Abreast pairing one two) :
    AbreastPastBlank pairing one.synchronize two.synchronize := by
  unfold Cursor.synchronize
  by_cases breaks : one.current.kind = .newline
  · dsimp only
    rw [passUntilResumption_behind_newline breaks,
      passUntilResumption_behind_newline (abreast.current.kind.trans breaks)]
    exact abreast.advance
  · have moved : Abreast pairing one.advance two.advance := by
      by_cases ended : one.current.kind = .eof
      · rwa [advance_of_eof ended, advance_of_eof (abreast.current.kind.trans ended)]
      · exact abreast.advance_inside (not_or.mpr ⟨breaks, ended⟩)
    exact passUntilResumption_pastBlank _ _ moved abreast.current.kind

theorem remaining_synchronize_le (cursor : Cursor) :
    cursor.synchronize.remaining ≤ cursor.advance.remaining :=
  remaining_passUntilResumption_le _ _ _ _

/-- Wherever parsers give up, those that resume have passed a token since they started. -/
theorem Abreast.synchronize_within {start other : Cursor} (begun : Abreast pairing start other)
    (inside : start.current.kind ≠ .eof) (abreast : Abreast pairing one two)
    (onward : Within (start.remaining, other.remaining) one two) :
    Within (less (start.remaining, other.remaining)) one.synchronize two.synchronize := by
  have first := remaining_synchronize_le one
  have second := remaining_synchronize_le two
  by_cases ended : one.current.kind = .eof
  · have none : one.after = [] ∧ two.after = [] := by
      rcases Matching.tail_cases abreast with ⟨_, none⟩ | ⟨inLine, _⟩ | ⟨breaks, _⟩
      · exact none
      · exact absurd (.inr ended) inLine
      · cases ended.symm.trans breaks
    have more := begun.after_ne_nil inside
    rw [advance_of_eof ended] at first
    rw [advance_of_eof (abreast.current.kind.trans ended)] at second
    simp only [Within, less, Prod.mk_le_mk, remaining, none, ← List.length_pos_iff] at *
    simp only [List.length_nil] at first second
    omega
  · have passed := abreast.remaining_advance ended
    simp only [Within, less, Prod.mk_le_mk] at *
    omega

end Cursor

/-! ### Parsers side by side -/

namespace Parse

section Judgement

variable (pairing : Pairing)

/-- What two runs have in common wherever they have come: neither went back, and the same errors
were reported. -/
structure Onward (start other reached mirror : Progress) : Prop where
  within : Cursor.Within (start.cursor.remaining, other.cursor.remaining)
    reached.cursor mirror.cursor
  errors : List.Forall₂ (SyntaxError.Matches pairing) reached.errors mirror.errors

/-- Two runs end alike: both find something, or both give up, standing abreast. -/
inductive Agree {α : Type} (found : α → α → Cursor → Cursor → Prop) (start other : Progress) :
    EStateM.Result SyntaxError Progress α → EStateM.Result SyntaxError Progress α → Prop where
  | ok {one two : α} {reached mirror : Progress}
      (onward : Onward pairing start other reached mirror)
      (holds : found one two reached.cursor mirror.cursor) :
      Agree found start other (.ok one reached) (.ok two mirror)
  | error {one two : SyntaxError} {reached mirror : Progress}
      (onward : Onward pairing start other reached mirror)
      (abreast : Cursor.Abreast pairing reached.cursor mirror.cursor) :
      Agree found start other (.error one reached) (.error two mirror)

/-- Started where the first condition holds, with at most so many tokens left, the parsers end
alike. What they find is related, they leave places where the second condition holds, and at most so
many tokens are left then. -/
def Parallel {α : Type} (stand : Cursor → Cursor → Prop) (room : Nat × Nat)
    (parser mirrored : Parse α) (leave : Cursor → Cursor → Prop) (left : Nat × Nat)
    (related : α → α → Prop) : Prop :=
  ∀ start other : Progress, stand start.cursor other.cursor →
    Cursor.Within room start.cursor other.cursor →
    List.Forall₂ (SyntaxError.Matches pairing) start.errors other.errors →
    Agree pairing
      (fun one two reached mirror => related one two ∧ leave reached mirror ∧
        Cursor.Within left reached mirror) start other (parser start) (mirrored other)

/-- Parsers of something within a line. -/
abbrev InLine {α : Type} (room : Nat × Nat) (parser mirrored : Parse α) (left : Nat × Nat)
    (related : α → α → Prop) : Prop :=
  Parallel pairing (Cursor.Abreast pairing) room parser mirrored (Cursor.Abreast pairing) left
    related

/-- Parsers of something that reaches to the end of a line. -/
abbrev ToLineEnd {α : Type} (room : Nat × Nat) (parser mirrored : Parse α) (left : Nat × Nat)
    (related : α → α → Prop) : Prop :=
  Parallel pairing (Cursor.Abreast pairing) room parser mirrored
    (Cursor.AbreastPastBlank pairing) left related

end Judgement

variable {α β : Type} {pairing : Pairing} {stand middle leave : Cursor → Cursor → Prop}
  {room between left : Nat × Nat} {related : α → α → Prop} {final : β → β → Prop}

theorem Onward.refl {start other : Progress}
    (errors : List.Forall₂ (SyntaxError.Matches pairing) start.errors other.errors) :
    Onward pairing start other start other :=
  ⟨⟨Nat.le_refl _, Nat.le_refl _⟩, errors⟩

/-- The way of two runs in two parts. -/
theorem Onward.trans {start other reached mirror last final : Progress}
    (first : Onward pairing start other reached mirror)
    (second : Onward pairing reached mirror last final) :
    Onward pairing start other last final :=
  ⟨second.within.mono first.within, second.errors⟩

theorem Agree.weaken {found holds : α → α → Cursor → Cursor → Prop} {start other : Progress}
    {one two : EStateM.Result SyntaxError Progress α}
    (agree : Agree pairing found start other one two)
    (implies : ∀ {one two reached mirror}, found one two reached mirror →
      holds one two reached mirror) : Agree pairing holds start other one two := by
  cases agree with
  | ok onward found => exact .ok onward (implies found)
  | error onward abreast => exact .error onward abreast

/-- Parsers that go abreast under some conditions do so under narrower ones at the start and wider
ones at the end. -/
theorem Parallel.weaken {parser mirrored : Parse α} {weaker : Cursor → Cursor → Prop}
    {larger : Nat × Nat} {other : α → α → Prop}
    (parallel : Parallel pairing stand room parser mirrored leave left related)
    (implies : ∀ {one two}, related one two → other one two)
    (leaves : ∀ {one two}, leave one two → weaker one two)
    (enough : left ≤ larger) : Parallel pairing stand room parser mirrored weaker larger other := by
  intro start begun stands within errors
  refine (parallel start begun stands within errors).weaken ?_
  rintro one two reached mirror ⟨found, stood, fits⟩
  exact ⟨implies found, leaves stood, fits.mono enough⟩

/-- What was passed need not be counted. -/
theorem Parallel.stay {parser mirrored : Parse α}
    (parallel : Parallel pairing stand room parser mirrored leave (Cursor.less left) related) :
    Parallel pairing stand room parser mirrored leave left related :=
  parallel.weaken id id (Cursor.less_le left)

/-- The parsers may be known to stand at a more particular place. -/
theorem Parallel.narrow {parser mirrored : Parse α} {stronger : Cursor → Cursor → Prop}
    (parallel : Parallel pairing stand room parser mirrored leave left related)
    (implies : ∀ {one two}, stronger one two → stand one two) :
    Parallel pairing stronger room parser mirrored leave left related :=
  fun start other stands => parallel start other (implies stands)

theorem Parallel.pure {one two : α} (holds : related one two) :
    Parallel pairing stand room (Pure.pure one) (Pure.pure two) stand room related :=
  fun _ _ stands within errors => .ok (.refl errors) ⟨holds, stands, within⟩

/-- Two pairs of parsers that go abreast do so one after the other. -/
theorem Parallel.bind {parser mirrored : Parse α} {next following : α → Parse β}
    (first : Parallel pairing stand room parser mirrored middle between related)
    (second : ∀ one two, related one two →
      Parallel pairing middle between (next one) (following two) leave left final) :
    Parallel pairing stand room (parser >>= next) (mirrored >>= following) leave left final := by
  intro start other stands within errors
  have agree := first start other stands within errors
  rw [Action.bind_apply, Action.bind_apply]
  generalize parser start = result at agree ⊢
  generalize mirrored other = ending at agree ⊢
  cases agree with
  | error onward abreast => exact .error onward abreast
  | @ok one two reached mirror onward holds =>
    obtain ⟨found, stood, fits⟩ := holds
    have behind := second one two found reached mirror stood fits onward.errors
    dsimp only
    generalize next one reached = last at behind ⊢
    generalize following two mirror = others at behind ⊢
    cases behind with
    | ok further holds => exact .ok (onward.trans further) holds
    | error further abreast => exact .error (onward.trans further) abreast

/-- There is always a token left. -/
theorem Parallel.of_no_room {parser mirrored : Parse α} (none : room.1 = 0 ∨ room.2 = 0) :
    Parallel pairing stand room parser mirrored leave left related := by
  intro start other _ within _
  have first : start.cursor.after.length + 1 ≤ room.1 := within.1
  have second : other.cursor.after.length + 1 ≤ room.2 := within.2
  omega

/-! #### The steps of parsers -/

/-- A bound may be taken from the tokens left, though each side counts its own. -/
theorem Parallel.counting {next following : Nat → Parse β}
    (parallel : ∀ one two, (one, two) ≤ room →
      Parallel pairing stand (one, two) (next one) (following two) leave left final) :
    Parallel pairing stand room (remaining >>= next) (remaining >>= following) leave left final :=
  fun start other stands within errors =>
    parallel _ _ within start other stands ⟨Nat.le_refl _, Nat.le_refl _⟩ errors

/-- Both parsers look at the same token. -/
theorem Parallel.looking {next following : Token → Parse β}
    (stands : ∀ {one two}, stand one two → Cursor.Abreast pairing one two)
    (parallel : ∀ one two, one.Matches pairing two →
      Parallel pairing (fun place mirror => stand place mirror ∧ place.current.kind = one.kind) room
        (next one) (following two) leave left final) :
    Parallel pairing stand room (current >>= next) (current >>= following) leave left final :=
  fun start other stood => parallel _ _ (stands stood).current start other ⟨stood, rfl⟩

/-- Both parsers take the same branch. -/
theorem Parallel.checking {next following : Bool → Parse β} (kinds : List TokenKind)
    (stands : ∀ {one two}, stand one two → Cursor.Abreast pairing one two)
    (found : Parallel pairing (fun one two => stand one two ∧ one.current.kind ∈ kinds) room
      (next true) (following true) leave left final)
    (missing : Parallel pairing (fun one two => stand one two ∧ one.current.kind ∉ kinds) room
      (next false) (following false) leave left final) :
    Parallel pairing stand room (check kinds >>= next) (check kinds >>= following) leave left
      final := by
  intro start other stood within errors
  change Agree _ _ _ _ (next (kinds.contains start.cursor.current.kind) start)
    (following (kinds.contains other.cursor.current.kind) other)
  rw [(stands stood).current.kind]
  cases listed : kinds.contains start.cursor.current.kind with
  | true => exact found start other ⟨stood, List.contains_iff_mem.mp listed⟩ within errors
  | false =>
    have unlisted : start.cursor.current.kind ∉ kinds := by
      rw [← List.contains_iff_mem, listed]
      exact Bool.false_ne_true
    exact missing start other ⟨stood, unlisted⟩ within errors

/-- A token within a line is passed by both parsers. -/
theorem Parallel.advance {sort : TokenKind → Prop} (inLine : ∀ kind, sort kind → ¬ kind.EndsLine) :
    Parallel pairing (Cursor.Seeing pairing sort) room advance advance (Cursor.Abreast pairing)
      (Cursor.less room) fun one two => one.Matches pairing two ∧ sort one.kind := by
  rintro start other ⟨abreast, sorted⟩ within errors
  have inside := inLine _ sorted
  have moved := abreast.remaining_advance fun ended => inside (.inr ended)
  refine .ok ⟨⟨by dsimp only; omega, by dsimp only; omega⟩, errors⟩
    ⟨⟨abreast.current, sorted⟩, abreast.advance_inside inside, ?_⟩
  exact within.less moved

/-- A token that was looked at is passed by both parsers. -/
theorem Parallel.pass {kind : TokenKind} (inLine : ¬ kind.EndsLine) :
    Parallel pairing
      (fun one two => Cursor.Abreast pairing one two ∧ one.current.kind = kind) room
      Parse.advance Parse.advance (Cursor.Abreast pairing) (Cursor.less room) fun _ _ => True := by
  have seen : Parallel pairing (Cursor.Seeing pairing (· = kind)) room _ _ _ _ _ :=
    .advance fun _ same => same ▸ inLine
  exact seen.weaken (fun _ => trivial) id ⟨Nat.le_refl _, Nat.le_refl _⟩

/-- Both sides give up with the same message, at tokens that match. -/
theorem Parallel.fail {message : String} (oneLine : OneLine message) :
    Parallel pairing (Cursor.Abreast pairing) room (Parse.fail message) (Parse.fail message) leave
      left related := by
  intro start other abreast _ errors
  refine .error ⟨⟨Nat.le_refl _, Nat.le_refl _⟩, ?_⟩ abreast
  exact List.rel_append errors (.cons ⟨abreast.current, rfl, oneLine⟩ .nil)

/-- Both parsers report the same error and go on. -/
theorem Parallel.report {one two : Token} (pair : one.Matches pairing two) {message : String}
    (oneLine : OneLine message) :
    Parallel pairing stand room (Parse.report one message) (Parse.report two message) stand room
      fun _ _ => True := by
  intro start other stands within errors
  refine .ok ⟨⟨Nat.le_refl _, Nat.le_refl _⟩, ?_⟩ ⟨trivial, stands, within⟩
  exact List.rel_append errors (.cons ⟨pair, rfl, oneLine⟩ .nil)

/-- An expected token is found on both sides or on none. -/
theorem Parallel.expect {kind : TokenKind} (inLine : ¬ kind.EndsLine) {message : String}
    (oneLine : OneLine message) :
    InLine pairing room (Parse.expect kind message) (Parse.expect kind message) (Cursor.less room)
      (Token.Same pairing [kind]) :=
  .checking [kind] id (.advance (by simpa using inLine)) (.narrow (.fail oneLine) And.left)

/-- Behind a newline, the parsers may see blank lines of their own. -/
theorem Parallel.expect_newline {message : String} (oneLine : OneLine message) :
    ToLineEnd pairing room (Parse.expect .newline message) (Parse.expect .newline message)
      (Cursor.less room) fun _ _ => True := by
  refine .checking [.newline] id ?_ (.narrow (.fail oneLine) And.left)
  rintro start other ⟨abreast, listed⟩ within errors
  have breaks : start.cursor.current.kind = .newline := List.mem_singleton.mp listed
  have moved := abreast.remaining_advance (by simp [breaks])
  exact .ok ⟨⟨by dsimp only; omega, by dsimp only; omega⟩, errors⟩
    ⟨trivial, abreast.advance_newline breaks, within.less moved⟩

/-- At the end of a line each side has passed its newline. -/
theorem Parallel.endLine {message : String} (oneLine : OneLine message) :
    ToLineEnd pairing room (Parse.endLine message) (Parse.endLine message) (Cursor.less room)
      fun _ _ => True :=
  .bind (.expect_newline oneLine) fun _ _ _ => .pure trivial

/-- Blank lines are passed by each side alone, for they may differ in number. -/
theorem Parallel.skipNewlines :
    Parallel pairing (Cursor.AbreastPastBlank pairing) room Parse.skipNewlines Parse.skipNewlines
      (Cursor.Abreast pairing) room fun _ _ => True := by
  intro start other near within errors
  have first := Cursor.remaining_skipNewlines_le start.cursor
  have second := Cursor.remaining_skipNewlines_le other.cursor
  exact .ok ⟨⟨first, second⟩, errors⟩
    ⟨trivial, near.skipNewlines, Nat.le_trans first within.1, Nat.le_trans second within.2⟩

/-- A token that may be missing is found by both parsers or by neither. -/
theorem Parallel.accepting {kinds : List TokenKind} (inLine : ∀ kind ∈ kinds, ¬ kind.EndsLine)
    {next following : Option Token → Parse β}
    (missing : Parallel pairing (Cursor.Abreast pairing) room (next none) (following none)
      leave left final)
    (found : ∀ one two, one.Same pairing kinds two →
      Parallel pairing (Cursor.Abreast pairing) (Cursor.less room) (next (some one))
        (following (some two)) leave left final) :
    Parallel pairing (Cursor.Abreast pairing) room (Parse.accept kinds >>= next)
      (Parse.accept kinds >>= following) leave left final := by
  unfold accept
  rw [bind_assoc, bind_assoc]
  refine .checking kinds id ?_ ?_
  · simp only [if_true, bind_assoc, pure_bind]
    exact .bind (.advance inLine) found
  · simp only [Bool.false_eq_true, if_false, pure_bind]
    exact .narrow missing And.left

theorem Parallel.expectAll {message : String} (oneLine : OneLine message)
    {kinds : List TokenKind} (inLine : ∀ kind ∈ kinds, ¬ kind.EndsLine) :
    InLine pairing room (Parse.expectAll message kinds) (Parse.expectAll message kinds) room
      fun _ _ => True := by
  induction kinds with
  | nil => exact .pure trivial
  | cons kind rest inductionHypothesis =>
    have ⟨first, others⟩ := List.forall_mem_cons.mp inLine
    exact .bind (.stay (.expect first oneLine)) fun _ _ _ => inductionHypothesis others

/-- The words of a line, and its end. -/
theorem Parallel.expectLine (kinds : List TokenKind) {message : String} (oneLine : OneLine message)
    (inLine : ∀ kind ∈ kinds, ¬ kind.EndsLine) :
    ToLineEnd pairing room (Parse.expectAll message (kinds ++ [.newline]))
      (Parse.expectAll message (kinds ++ [.newline])) room fun _ _ => True := by
  induction kinds with
  | nil =>
    exact .bind (.stay (.expect_newline oneLine)) fun _ _ _ => .pure trivial
  | cons kind rest inductionHypothesis =>
    have ⟨first, others⟩ := List.forall_mem_cons.mp inLine
    exact .bind (.stay (.expect first oneLine)) fun _ _ _ => inductionHypothesis others

/-- Passing the rest of a line passes the token that both parsers see. -/
theorem Parallel.skipLine {sort : TokenKind → Prop} (inside : ¬ sort .eof) :
    Parallel pairing (Cursor.Seeing pairing sort) room Parse.skipLine Parse.skipLine
      (Cursor.AbreastPastBlank pairing) (Cursor.less room) fun _ _ => True := by
  rintro start other ⟨abreast, sorted⟩ within errors
  have notEnd : start.cursor.current.kind ≠ .eof := fun ended => inside (ended ▸ sorted)
  have more := abreast.after_ne_nil notEnd
  have first := Cursor.remaining_skipLine_lt notEnd more.1
  have second := Cursor.remaining_skipLine_lt (abreast.current.kind ▸ notEnd) more.2
  refine .ok ⟨⟨Nat.le_of_lt first, Nat.le_of_lt second⟩, errors⟩ ⟨trivial, abreast.skipLine, ?_⟩
  exact ⟨Nat.le_sub_one_of_lt (Nat.lt_of_lt_of_le first within.1),
    Nat.le_sub_one_of_lt (Nat.lt_of_lt_of_le second within.2)⟩

/-- Where parsing resumes, at least the token at which the broken item started is passed. -/
theorem Parallel.recover {sort : TokenKind → Prop} (inside : ¬ sort .eof)
    {item mirrored : Parse α}
    (parallel : Parallel pairing (Cursor.Seeing pairing sort) room item mirrored
      (Cursor.AbreastPastBlank pairing) (Cursor.less room) related) :
    Parallel pairing (Cursor.Seeing pairing sort) room (Parse.recover item) (Parse.recover mirrored)
      (Cursor.AbreastPastBlank pairing) (Cursor.less room) (Option.Rel related) := by
  intro start other seeing within errors
  have agree := parallel start other seeing within errors
  obtain ⟨abreast, sorted⟩ := seeing
  unfold Parse.recover
  generalize item start = result at agree ⊢
  generalize mirrored other = ending at agree ⊢
  cases agree with
  | ok onward holds => exact .ok onward ⟨.some holds.1, holds.2⟩
  | @error one two reached mirror onward given =>
    have inside : start.cursor.current.kind ≠ .eof := fun ended => inside (ended ▸ sorted)
    have fits := abreast.synchronize_within inside given onward.within
    refine .ok ⟨fits.mono (Cursor.less_le _), onward.errors⟩ ?_
    exact ⟨.none, given.synchronize, fits.mono (Cursor.less_le_less within)⟩

end Parse

end LineScript
