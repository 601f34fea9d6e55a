/-
Module: LineScript.Proofs.BrokenStrings
Purpose: What is said about a broken string literal is what is wrong with it.
Trusted boundary: none
Main exports: BrokenOff, BrokenOff.flaw_eq, brokenOff_of_cut, broken_strings_diagnosed
-/
import LineScript.Proofs.StringUnits

/-!
A string literal that is not closed on its line is rejected up to the place where its units end,
with an escape sequence that was opened there and not closed. The rejected fragment is then read a
second time, to say what is wrong with it, and this reading passes the same units. So it ends where
they end: at the bracket that was opened last, or at the end of the fragment, and never at a quote.
-/

namespace LineScript

namespace Escape

/-- Why the text behind an opening quote is no string literal, in front of what is not rejected with
it. Up to its flaw it is made of units. -/
inductive BrokenOff : List Char → List Char → Flaw → Prop where
  /-- A bracket opens an escape sequence, and the line ends. -/
  | cutOff {after : List Char} (units : List StringUnit)
      (lineEnd : ∀ char ∈ after.head?, char = '\n') :
      BrokenOff (units.flatMap StringUnit.text ++ ['[']) after .cutOff
  /-- A bracket opens an escape sequence, and no bracket closes it behind its letter. -/
  | unclosed {after : List Char} (units : List StringUnit) (letter : Char)
      (leftOpen : after.head? ≠ some ']') :
      BrokenOff (units.flatMap StringUnit.text ++ ['[', letter]) after .unclosed
  /-- All escape sequences are closed, and the line ends. -/
  | textEnd {after : List Char} (units : List StringUnit)
      (lineEnd : ∀ char ∈ after.head?, char = '\n') :
      BrokenOff (units.flatMap StringUnit.text) after .textEnd

/-! ### The flaw of a broken string literal -/

theorem flaw_plain {char : Char} (plain : isPlain char) (rest : List Char) :
    flaw (char :: rest) = flaw rest := by
  have opening := StringUnit.plain_ne_bracket plain
  have quote : char ≠ '"' := by
    rintro rfl
    cases plain
  exact flaw.eq_5 char rest (fun same => quote same) (fun same _ => opening same)
    (fun _ _ same _ => opening same) fun _ _ same _ => opening same

/-- The search for the flaw goes on behind every unit. -/
theorem flaw_units (units : List StringUnit) (rest : List Char) :
    flaw (units.flatMap StringUnit.text ++ rest) = flaw rest := by
  induction units with
  | nil => rfl
  | cons unit others inductionHypothesis =>
    rw [List.flatMap_cons, List.append_assoc, ← inductionHypothesis]
    cases unit with
    | sequence letter _ => simp [StringUnit.text, flaw]
    | plain char isPlain => exact flaw_plain isPlain _

/-- So it ends where the literal is broken off. -/
theorem BrokenOff.flaw_eq {inside after : List Char} {found : Flaw}
    (broken : BrokenOff inside after found) : flaw inside = found := by
  cases broken with
  | cutOff units => exact flaw_units units ['[']
  | unclosed units letter => simp [flaw_units, flaw]
  | textEnd units =>
    rw [← List.append_nil (units.flatMap _), flaw_units]
    rfl

/-! ### Where a string literal is broken off -/

/-- Units end in front of a character that is no unit by itself and opens no escape sequence. -/
theorem body_stops (text : List Char) :
    match (body text).2 with
    | [] => True
    | '[' :: letter :: ']' :: _ => letter = '\n'
    | char :: _ => isPlain char = false := by
  fun_induction body text with
  | case1 => rfl
  | case2 letter rest oneLine taken after split inductionHypothesis =>
    rwa [split] at inductionHypothesis
  | case3 char rest _ isPlain taken after split inductionHypothesis =>
    rwa [split] at inductionHypothesis
  | case4 char rest notSequence notPlain =>
    split
    · trivial
    · rename_i letter more same
      obtain ⟨opening, closed⟩ := List.cons.inj same
      exact (notSequence letter more opening closed).elim
    · rename_i same
      obtain ⟨rfl, -⟩ := List.cons.inj same
      simpa using notPlain
  | case5 => trivial

/-- What is rejected of a string literal is broken off behind its units. -/
theorem brokenOff_body {rest : List Char} (unclosed : (body rest).2.head? ≠ some '"') :
    ∃ found,
      BrokenOff ((body rest).1 ++ (broken (body rest).2).1) (broken (body rest).2).2 found := by
  obtain ⟨units, taken⟩ := StringUnit.exists_units rest
  have stops := body_stops rest
  rw [taken]
  generalize (body rest).2 = left at stops unclosed
  fun_cases broken left with
  | case1 more => exact ⟨_, .cutOff units (by simp)⟩
  | case2 letter more oneLine =>
    refine ⟨_, .unclosed units letter ?_⟩
    intro closed
    obtain ⟨others, rfl⟩ := List.head?_eq_some_iff.mp closed
    exact oneLine stops
  | case3 => exact ⟨_, .cutOff units (by simp)⟩
  | case4 left notOpened notLast =>
    rw [List.append_nil]
    refine ⟨_, .textEnd units ?_⟩
    intro char first
    obtain ⟨others, rfl⟩ := List.head?_eq_some_iff.mp first
    have other : char ≠ '[' := by
      rintro rfl
      cases others with
      | nil => exact notLast rfl
      | cons letter more => exact notOpened letter more rfl
    have noQuote : char ≠ '"' := by
      rintro rfl
      exact unclosed rfl
    have notPlain : isPlain char = false := by
      split at stops
      all_goals simp_all
    simpa [isPlain, other, noQuote] using notPlain

/-! ### What the message says -/

section Messages

variable {inside after : List Char} {found : Flaw} (broken : BrokenOff inside after found)

include broken

theorem BrokenOff.message_cutOff_iff :
    found.message = "Unterminated string inside escape sequence" ↔
      (∃ units : List StringUnit, inside = units.flatMap StringUnit.text ++ ['[']) ∧
        ∀ char ∈ after.head?, char = '\n' := by
  constructor
  · intro told
    cases broken with
    | cutOff units lineEnd => exact ⟨⟨units, rfl⟩, lineEnd⟩
    | unclosed | textEnd => exact absurd told (by decide)
  · rintro ⟨⟨units, rfl⟩, -⟩
    rw [← broken.flaw_eq, flaw_units]
    rfl

theorem BrokenOff.message_unclosed_iff :
    found.message = "Expected ']' to close escape sequence" ↔
      (∃ (units : List StringUnit) (letter : Char),
          inside = units.flatMap StringUnit.text ++ ['[', letter]) ∧
        after.head? ≠ some ']' := by
  constructor
  · intro told
    cases broken with
    | unclosed units letter leftOpen => exact ⟨⟨units, letter, rfl⟩, leftOpen⟩
    | cutOff | textEnd => exact absurd told (by decide)
  · rintro ⟨⟨units, letter, rfl⟩, -⟩
    rw [← broken.flaw_eq, flaw_units, flaw]
    · rfl
    · simp

theorem BrokenOff.message_textEnd_iff :
    found.message = "Unterminated string" ↔
      (∃ units : List StringUnit, inside = units.flatMap StringUnit.text) ∧
        ∀ char ∈ after.head?, char = '\n' := by
  constructor
  · intro told
    cases broken with
    | textEnd units lineEnd => exact ⟨⟨units, rfl⟩, lineEnd⟩
    | cutOff | unclosed => exact absurd told (by decide)
  · rintro ⟨⟨units, rfl⟩, -⟩
    rw [← broken.flaw_eq, ← List.append_nil (units.flatMap _), flaw_units]
    rfl

theorem BrokenOff.flaw_ne_quote : found ≠ .quote := by
  cases broken <;> decide

end Messages

end Escape

/-! ### Rejected fragments of a source text -/

/-- What is read off the pieces of a text is read off one of them, at the place just behind the text
in front of it. -/
theorem exists_front_of_mem_placed {α : Type} {read? : Position → Piece → Option α}
    (before source : List Char) :
    ∀ item ∈ placed read? (.behind before) (pieces source), ∃ front char rest,
      source = front ++ char :: rest ∧
        read? (.behind (before ++ front)) (Piece.cut char rest).1 = some item := by
  fun_induction pieces source generalizing before with
  | case1 => exact List.forall_mem_nil _
  | case2 char rest found inductionHypothesis =>
    rw [placed_cons, Position.after_behind]
    refine List.forall_mem_append.mpr ⟨fun item member => ?_, fun item member => ?_⟩
    · refine ⟨[], char, rest, rfl, ?_⟩
      rw [List.append_nil]
      exact Option.mem_toList.mp member
    · obtain ⟨front, next, others, split, read⟩ := inductionHypothesis _ item member
      refine ⟨found.1.text ++ front, next, others, ?_, List.append_assoc _ _ _ ▸ read⟩
      rw [List.append_assoc, ← split]
      exact (Piece.cut_append char rest).symm

namespace Piece

/-- A fragment that is rejected at a quote is broken off where its flaw is found. -/
theorem brokenOff_of_cutString {rest shown : List Char} {message : String}
    (role : (cutString '"' rest).1.role = .rejected message shown) :
    ∃ inside after, rest = inside ++ after ∧ shown = '"' :: inside ∧
      message = Escape.complaint inside ∧
      Escape.BrokenOff inside after (Escape.flaw inside) := by
  have whole : rest = (Escape.body rest).1 ++ (Escape.broken (Escape.body rest).2).1 ++
      (Escape.broken (Escape.body rest).2).2 := by
    rw [List.append_assoc, broken_append, body_append]
  unfold cutString at role
  dsimp only at role
  split at role
  · cases role
  · rename_i unclosed
    cases role
    have noQuote : (Escape.body rest).2.head? ≠ some '"' := by
      intro quote
      obtain ⟨more, closed⟩ := List.head?_eq_some_iff.mp quote
      exact unclosed more closed
    obtain ⟨found, broken⟩ := Escape.brokenOff_body noQuote
    exact ⟨_, _, whole, rfl, rfl, broken.flaw_eq.symm ▸ broken⟩

/-- Only string literals start with a quote, so a fragment that does is a broken one. -/
theorem brokenOff_of_cut {char : Char} {rest shown : List Char} {message : String}
    (role : (cut char rest).1.role = .rejected message shown) (quoted : shown.head? = some '"') :
    char = '"' ∧ ∃ inside after, rest = inside ++ after ∧ shown = '"' :: inside ∧
      message = Escape.complaint inside ∧
      Escape.BrokenOff inside after (Escape.flaw inside) := by
  have proper := cut_proper char rest
  rw [Proper, role] at proper
  obtain ⟨tail, text, -⟩ := cut_faithful char rest
  obtain ⟨behind, shows⟩ := proper.2
  obtain ⟨others, rfl⟩ := List.head?_eq_some_iff.mp quoted
  rw [text, List.cons_append] at shows
  obtain ⟨rfl, -⟩ := List.cons.inj shows
  rw [cut_quote] at role
  exact ⟨rfl, brokenOff_of_cutString role⟩

end Piece

/-- Every fragment of a source text that is rejected as a string literal stands where its report
says, and the report says what is wrong with it: either it ends with a bracket that opens an escape
sequence at the end of its line, or with such a bracket and one more character which is not followed
by the closing one, or it reaches to the end of its line with all its escape sequences closed. Each
of the messages is given in exactly one of these cases, and looking for the flaw never ends at a
quote. -/
theorem Escape.broken_strings_diagnosed (source : String) :
    ∀ error ∈ (lex source).errors, error.shown.toList.head? = some '"' →
      ∃ before inside after : List Char,
        source.toList = before ++ '"' :: inside ++ after ∧
        error.shown = String.ofList ('"' :: inside) ∧ error.position = .behind before ∧
        (error.message = "Unterminated string inside escape sequence" ↔
          (∃ units : List StringUnit, inside = units.flatMap StringUnit.text ++ ['[']) ∧
            ∀ char ∈ after.head?, char = '\n') ∧
        (error.message = "Expected ']' to close escape sequence" ↔
          (∃ (units : List StringUnit) (letter : Char),
            inside = units.flatMap StringUnit.text ++ ['[', letter]) ∧
            after.head? ≠ some ']') ∧
        (error.message = "Unterminated string" ↔
          (∃ units : List StringUnit, inside = units.flatMap StringUnit.text) ∧
            ∀ char ∈ after.head?, char = '\n') ∧
        error.message = complaint inside ∧ flaw inside ≠ .quote := by
  intro error member quoted
  rw [lex_eq, show Position.start = .behind [] from rfl] at member
  obtain ⟨before, char, rest, whole, read⟩ := exists_front_of_mem_placed [] _ error member
  unfold Piece.error? at read
  split at read
  · rename_i message shown role
    cases read
    rw [String.toList_ofList] at quoted
    obtain ⟨rfl, inside, after, rfl, rfl, rfl, broken⟩ := Piece.brokenOff_of_cut role quoted
    refine ⟨before, inside, after, ?_, rfl, rfl, broken.message_cutOff_iff,
      broken.message_unclosed_iff, broken.message_textEnd_iff, rfl, broken.flaw_ne_quote⟩
    rw [whole, List.append_assoc, List.cons_append]
  · cases read

theorem Escape.leftOpen_diagnosed :
    ∃ error ∈ (lex "PRINT: \"a[b][n").errors, error.shown.toList.head? = some '"' ∧
      error.message = "Expected ']' to close escape sequence" ∧
      ∃ (units : List StringUnit) (letter : Char),
        error.shown = String.ofList ('"' :: units.flatMap StringUnit.text ++ ['[', letter]) := by
  have rejected : (lex "PRINT: \"a[b][n").errors =
      [⟨"Expected ']' to close escape sequence", "\"a[b][n", ⟨1, 8⟩⟩] := by
    decide +kernel
  have member := rejected ▸ List.mem_singleton_self _
  have quoted : ("\"a[b][n" : String).toList.head? = some '"' := by decide
  obtain ⟨before, inside, after, whole, shows, place, cutOff, unclosed, others⟩ :=
    broken_strings_diagnosed _ _ member quoted
  obtain ⟨⟨units, letter, rfl⟩, -⟩ := unclosed.mp rfl
  exact ⟨_, member, quoted, rfl, units, letter, shows⟩

end LineScript
