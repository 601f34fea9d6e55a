/-
Module: LineScript.Proofs.TextPlaces
Purpose: Where tokens and errors stand in the lines of a text.
Trusted boundary: none
Main exports: Text.lines, Position.Shows, Token.ClearOf, tokens_show, errors_show
-/
import LineScript.Proofs.SourceTiling
import Mathlib.Data.List.DropRight

/-!
Read by its newlines, a text is a list of lines, and a place is a line and a column in it. The place
behind some front of a text is in the line that the last line of the front begins, as many columns
to the right as that has characters. So everything that a tiling places stands inside its text: a
token covers its lexeme there, and the token after it begins where it has ended or later.
-/

namespace LineScript

/-! ### Lines -/

namespace Text

/-- The lines of a text, which are cut at its newlines and do not hold them. -/
def lines (text : List Char) : List (List Char) :=
  text.splitOn '\n'

/-- The part of a text behind its last newline. -/
def lastLine (text : List Char) : List Char :=
  text.rtakeWhile (· != '\n')

theorem lines_append_newline (front back : List Char) :
    lines (front ++ '\n' :: back) = lines front ++ lines back :=
  List.splitOnP_append_cons front back rfl

theorem length_lines (text : List Char) : (lines text).length = text.count '\n' + 1 := by
  induction text with
  | nil => rfl
  | cons char rest inductionHypothesis =>
    unfold lines List.splitOn at *
    rw [List.splitOnP_cons_eq_if_modifyHead]
    by_cases newline : char = '\n'
    · simp [newline, inductionHypothesis]
    · simp [newline, inductionHypothesis]

theorem head?_lines {front : List Char} (oneLine : '\n' ∉ front) (back : List Char) :
    (lines (front ++ back)).head? = some (front ++ back.takeWhile (· != '\n')) := by
  have whole := List.takeWhile_append_dropWhile (p := (· != '\n')) (l := back)
  have plain : ∀ char ∈ front ++ back.takeWhile (· != '\n'), (char == '\n') = false := by
    intro char member
    rcases List.mem_append.mp member with inFront | inBack
    · simpa using ne_of_mem_of_not_mem inFront oneLine
    · simpa using List.mem_takeWhile_imp inBack
  have first : lines (front ++ back.takeWhile (· != '\n')) =
      [front ++ back.takeWhile (· != '\n')] := List.splitOnP_eq_singleton plain
  cases rest : back.dropWhile (· != '\n') with
  | nil =>
    rw [rest, List.append_nil] at whole
    rw [whole] at first ⊢
    rw [first, List.head?_cons]
  | cons char after =>
    have newline : char = '\n' := by
      have refused := List.head?_dropWhile_not (· != '\n') back
      rw [rest] at refused
      simpa using refused
    rw [rest, newline] at whole
    rw [← whole, ← List.append_assoc, lines_append_newline, whole, first]
    rfl

/-- A text is a single line, or its last line stands behind its last newline. -/
theorem oneLine_or_lastLine (text : List Char) :
    ('\n' ∉ text ∧ lastLine text = text) ∨
      ∃ earlier, text = earlier ++ '\n' :: lastLine text := by
  induction text using List.reverseRecOn with
  | nil => exact .inl ⟨List.not_mem_nil, rfl⟩
  | append_singleton text char inductionHypothesis =>
    unfold lastLine at *
    by_cases newline : char = '\n'
    · rw [List.rtakeWhile_concat_neg _ _ _ (by simp [newline])]
      exact .inr ⟨text, by rw [newline]⟩
    · rw [List.rtakeWhile_concat_pos _ _ _ (by simp [newline])]
      rcases inductionHypothesis with ⟨oneLine, same⟩ | ⟨earlier, same⟩
      · exact .inl ⟨by simp [oneLine, Ne.symm newline], by rw [same]⟩
      · refine .inr ⟨earlier, ?_⟩
        rw [← List.cons_append, ← List.append_assoc, ← same]

theorem newline_not_mem_lastLine (text : List Char) : '\n' ∉ lastLine text := by
  intro member
  simpa using List.mem_rtakeWhile_imp member

/-- The line in which a front of a text ends holds the last line of the front and what follows it up
to the next newline. -/
theorem getElem?_lines (front back : List Char) :
    (lines (front ++ back))[front.count '\n']? =
      some (lastLine front ++ back.takeWhile (· != '\n')) := by
  rcases oneLine_or_lastLine front with ⟨oneLine, same⟩ | ⟨earlier, same⟩
  · rw [List.count_eq_zero_of_not_mem oneLine, same, ← List.head?_eq_getElem?]
    exact head?_lines oneLine back
  · have oneLine := newline_not_mem_lastLine front
    generalize lastLine front = last at same oneLine ⊢
    subst same
    have count : (earlier ++ '\n' :: last).count '\n' = (lines earlier).length := by
      rw [length_lines, List.count_append, List.count_cons_self,
        List.count_eq_zero_of_not_mem oneLine]
    rw [count, List.append_assoc, List.cons_append, lines_append_newline,
      List.getElem?_append_right (Nat.le_refl _), Nat.sub_self, ← List.head?_eq_getElem?]
    exact head?_lines oneLine back

end Text

/-! ### Places -/

namespace Position

theorem behind_eq (text : List Char) :
    behind text = ⟨text.count '\n' + 1, (Text.lastLine text).length + 1⟩ := by
  simp [behind, Text.lastLine, List.rtakeWhile]

/-- Behind more text stands a later line, or the same line as much further right. -/
theorem behind_append (front text : List Char) :
    (behind front).line < (behind (front ++ text)).line ∨
      (behind front).line = (behind (front ++ text)).line ∧
        (behind front).column + text.length = (behind (front ++ text)).column := by
  by_cases broken : '\n' ∈ text
  · left
    have more := List.count_pos_iff.mpr broken
    rw [behind_eq, behind_eq, List.count_append]
    dsimp only
    omega
  · right
    rw [← after_behind, after_oneLine broken]
    exact ⟨rfl, rfl⟩

/-- In a rest of a text, at the place, stand the shown characters. -/
def Shows (before rest shown : List Char) (position : Position) : Prop :=
  ∃ gap back, rest = gap ++ (shown ++ back) ∧ position = behind (before ++ gap)

namespace Shows

variable {before text rest shown : List Char} {position : Position}

theorem here (inFront : shown <+: text) : Shows before (text ++ rest) shown (behind before) := by
  obtain ⟨tail, rfl⟩ := inFront
  exact ⟨[], tail ++ rest, by simp, by simp⟩

theorem widen (shows : Shows (before ++ text) rest shown position) :
    Shows before (text ++ rest) shown position := by
  obtain ⟨gap, back, rfl, rfl⟩ := shows
  exact ⟨text ++ gap, back, by simp, by simp⟩

/-- A place in the text behind some text is clear of it. -/
theorem clear (shows : Shows (before ++ text) rest shown position) :
    (behind before).line < position.line ∨ (behind before).line = position.line ∧
      (behind before).column + text.length ≤ position.column := by
  obtain ⟨gap, _, _, rfl⟩ := shows
  rw [List.append_assoc]
  rcases behind_append before (text ++ gap) with later | ⟨sameLine, columns⟩
  · exact .inl later
  · rw [List.length_append, ← Nat.add_assoc] at columns
    exact .inr ⟨sameLine, columns ▸ Nat.le_add_right _ _⟩

/-- A place in a text is counted from one, and the characters that it shows stand in a line of the
text, if they are on one line. -/
theorem inLine (shows : Shows [] text shown position) :
    ∃ line column, position = ⟨line + 1, column + 1⟩ ∧
      ∃ front rest, (Text.lines text)[line]? = some (front ++ rest) ∧ front.length = column ∧
        ('\n' ∉ shown → shown <+: rest) := by
  obtain ⟨gap, back, rfl, rfl⟩ := shows
  refine ⟨_, _, behind_eq _, Text.lastLine gap, _, Text.getElem?_lines gap _, rfl, ?_⟩
  intro oneLine
  have other : ∀ char ∈ shown, (char != '\n') = true := by
    intro char member
    simpa using ne_of_mem_of_not_mem member oneLine
  rw [List.takeWhile_append_of_pos other]
  exact List.prefix_append shown _

end Shows

end Position

/-! ### What a tiling places -/

/-- The second token stands in a later line, or in the same line not before the end of the first. -/
def Token.ClearOf (one two : Token) : Prop :=
  one.position.line < two.position.line ∨ one.position.line = two.position.line ∧
    one.position.column + one.lexeme.toList.length ≤ two.position.column

namespace Tiles

variable {before rest : List Char} {tokens : List Token} {errors : List LexicalError}

/-- Every token stands in the text with its lexeme, and clear of those in front of it. -/
theorem tokens_show (tiles : Tiles before rest tokens errors) :
    (∀ token ∈ tokens, token.position.Shows before rest token.lexeme.toList) ∧
      tokens.Pairwise Token.ClearOf := by
  induction tiles with
  | done before =>
    simp only [List.forall_mem_singleton, List.pairwise_singleton, and_true]
    exact ⟨[], [], by simp [Token.endAt], by simp [Token.endAt]⟩
  | newline _ inductionHypothesis | token _ _ _ _ _ _ _ inductionHypothesis =>
    obtain ⟨shown, clear⟩ := inductionHypothesis
    constructor
    · refine List.forall_mem_cons.mpr ⟨.here (by simp), fun token member => ?_⟩
      exact (shown token member).widen
    · refine List.pairwise_cons.mpr ⟨fun token member => ?_, clear⟩
      simpa [Token.ClearOf] using (shown token member).clear
  | blanks _ _ _ _ inductionHypothesis | comment _ _ _ _ inductionHypothesis
  | rejected _ _ _ _ _ inductionHypothesis =>
    obtain ⟨shown, clear⟩ := inductionHypothesis
    exact ⟨fun token member => (shown token member).widen, clear⟩

/-- Every rejected fragment stands in the text with what its report shows. -/
theorem errors_show (tiles : Tiles before rest tokens errors) :
    ∀ error ∈ errors, error.position.Shows before rest error.shown.toList := by
  induction tiles with
  | done before => exact List.forall_mem_nil _
  | newline _ inductionHypothesis | token _ _ _ _ _ _ _ inductionHypothesis
  | blanks _ _ _ _ inductionHypothesis | comment _ _ _ _ inductionHypothesis =>
    exact fun error member => (inductionHypothesis error member).widen
  | rejected message _ _ shows _ inductionHypothesis =>
    refine List.forall_mem_cons.mpr ⟨.here (by simpa using shows), ?_⟩
    exact fun error member => (inductionHypothesis error member).widen

end Tiles

end LineScript
