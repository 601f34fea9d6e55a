/-
Module: LineScript.Proofs.EditorWords
Purpose: Where the places of an editor are in a text, and which word stands at them.
Trusted boundary: the word at a place is the one that LineScript.Editor.Word finds.
Main exports: boundaries, NewlinesOnly, placeBehind, placeBehind_eq_iff, wordAt_placeBehind
-/
import LineScript.Editor.Word
import LineScript.Proofs.TextPlaces

/-!
An editor cuts a text into lines at more characters than newlines, and counts columns in units of
which some characters take two. So the place behind some front of a text has two descriptions: the
count of the editor's line boundaries and of the units behind the last of them, and the count of
newlines and of the characters behind the last of them. They are the same exactly if the front has
no line boundaries of its own making and its last line is made of characters of one unit. Asked for
the word at its own place behind a front, the editor finds the word that begins there.
-/

namespace LineScript

namespace Text

/-! ### Columns in units -/

theorem units_cons (char : Char) (rest : List Char) :
    units (char :: rest) = unitsOfChar char + units rest := by
  have shift : ∀ (text : List Char) (total : Nat),
      text.foldl (fun sum char => sum + unitsOfChar char) total = total + units text := by
    intro text
    induction text with
    | nil => exact fun _ => rfl
    | cons first rest inductionHypothesis =>
      intro total
      rw [units, List.foldl_cons, List.foldl_cons, inductionHypothesis, inductionHypothesis]
      omega
  rw [units, List.foldl_cons, shift]
  omega

/-- The units of a text are those of its parts. -/
theorem units_append (front back : List Char) :
    units (front ++ back) = units front + units back := by
  induction front with
  | nil => exact (Nat.zero_add _).symm
  | cons char front inductionHypothesis =>
    rw [List.cons_append, units_cons, units_cons, inductionHypothesis]
    omega

theorem unitsOfChar_pos (char : Char) : 0 < unitsOfChar char := by
  unfold unitsOfChar
  split <;> decide

/-- A text has no fewer units than characters. -/
theorem length_le_units (text : List Char) : text.length ≤ units text := by
  induction text with
  | nil => exact Nat.le_refl 0
  | cons char rest inductionHypothesis =>
    have positive := unitsOfChar_pos char
    rw [units_cons, List.length_cons]
    omega

/-- A text has as many units as characters exactly if each character takes one. -/
theorem units_eq_length_iff {text : List Char} :
    units text = text.length ↔ ∀ char ∈ text, unitsOfChar char = 1 := by
  induction text with
  | nil => exact ⟨fun _ => List.forall_mem_nil _, fun _ => rfl⟩
  | cons char rest inductionHypothesis =>
    have positive := unitsOfChar_pos char
    have enough := length_le_units rest
    rw [List.forall_mem_cons, ← inductionHypothesis, units_cons, List.length_cons]
    omega

/-- The column behind a front of a line is reached behind the characters of the front. -/
theorem charsBefore_units (front back : List Char) :
    charsBefore (units front) (front ++ back) = front.length := by
  induction front with
  | nil =>
    cases back with
    | nil => rfl
    | cons char rest => rfl
  | cons char front inductionHypothesis =>
    have positive := unitsOfChar_pos char
    rw [List.cons_append, charsBefore, units_cons, if_neg (by omega), Nat.add_sub_cancel_left,
      inductionHypothesis, List.length_cons]

/-! ### Line boundaries -/

/-- How many line boundaries an editor finds in a text. -/
def boundaries : List Char → Nat
  | '\r' :: '\n' :: rest => boundaries rest + 1
  | char :: rest => (if isLineBoundary char then 1 else 0) + boundaries rest
  | [] => 0

/-- A character inside a line of an editor. -/
def staysOnLine (char : Char) : Bool :=
  !isLineBoundary char

/-- The part of a text behind its last line boundary. -/
def begunLine (text : List Char) : List Char :=
  text.rtakeWhile staysOnLine

/-- No character of the text is a line boundary, apart from newlines and from carriage returns right
in front of them. -/
def NewlinesOnly : List Char → Prop
  | '\r' :: '\n' :: rest => NewlinesOnly rest
  | char :: rest => (isLineBoundary char → char = '\n') ∧ NewlinesOnly rest
  | [] => True

/-- A boundary ends what was begun, and a new line begins behind it. -/
theorem begunLine_append_boundary {boundary : Char} (ends : isLineBoundary boundary)
    (front back : List Char) : begunLine (front ++ boundary :: back) = begunLine back := by
  have refused : staysOnLine boundary = false := by simp [staysOnLine, ends]
  rw [begunLine, List.rtakeWhile, List.reverse_append, List.reverse_cons, List.append_assoc,
    List.singleton_append, List.takeWhile_append]
  split
  · rename_i whole
    rw [List.takeWhile_cons_of_neg (by simp [refused]), List.append_nil, List.reverse_reverse]
    have all : back.reverse.takeWhile staysOnLine = back.reverse :=
      (List.takeWhile_prefix staysOnLine).eq_of_length whole
    rw [begunLine, List.rtakeWhile, all, List.reverse_reverse]
  · rfl

theorem begunLine_of_forall {text : List Char} (stays : ∀ char ∈ text, staysOnLine char) :
    begunLine text = text :=
  List.rtakeWhile_eq_self_iff.mpr stays

theorem staysOnLine_of_mem_begunLine {text : List Char} :
    ∀ char ∈ begunLine text, staysOnLine char :=
  fun _ member => List.mem_rtakeWhile_imp member

/-! ### Lines of an editor -/

/-- One character: it ends the line or belongs to it, unless it is half of a pair. -/
theorem splitLinesFrom_cons {begun rest : List Char} {char : Char}
    (unpaired : char = '\r' → rest.head? ≠ some '\n') :
    splitLinesFrom begun (char :: rest) =
      if isLineBoundary char then (char :: begun).reverse :: splitLinesFrom [] rest
      else splitLinesFrom (char :: begun) rest := by
  rw [splitLinesFrom]
  rintro more rfl rfl
  exact unpaired rfl rfl

/-- A line goes on as long as its characters stay on it, and ends with a boundary or the text. -/
theorem head?_splitLinesFrom {begun rest : List Char} (nonempty : begun ≠ [] ∨ rest ≠ []) :
    ∃ ending, (splitLinesFrom begun rest).head? =
        some (begun.reverse ++ (rest.takeWhile staysOnLine ++ ending)) ∧
      ∀ char ∈ ending.head?, isLineBoundary char := by
  fun_induction splitLinesFrom begun rest with
  | case1 => simp at nonempty
  | case2 begun => exact ⟨[], by simp, by simp⟩
  | case3 begun rest =>
    exact ⟨['\r', '\n'], by simp [staysOnLine, isLineBoundary], by simp [isLineBoundary]⟩
  | case4 begun char rest _ boundary =>
    exact ⟨[char], by simp [staysOnLine, boundary], by simpa using boundary⟩
  | case5 begun char rest _ inside inductionHypothesis =>
    obtain ⟨ending, first, ends⟩ := inductionHypothesis (.inl (List.cons_ne_nil _ _))
    exact ⟨ending, by simp [first, staysOnLine, inside], ends⟩

/-- The line of an editor in which a front of a text ends holds the begun line of the front and what
follows it as long as that stays on the line. -/
theorem getElem?_splitLinesFrom (front : List Char) {begun rest : List Char}
    (stays : ∀ char ∈ begun, staysOnLine char) (nonempty : rest ≠ [])
    (unpaired : rest.head? ≠ some '\n') :
    ∃ ending, (splitLinesFrom begun (front ++ rest))[boundaries front]? =
        some (begunLine (begun.reverse ++ front) ++ (rest.takeWhile staysOnLine ++ ending)) ∧
      ∀ char ∈ ending.head?, isLineBoundary char := by
  have nothing : ∀ char ∈ ([] : List Char), staysOnLine char := List.forall_mem_nil _
  fun_induction boundaries front generalizing begun with
  | case1 front inductionHypothesis =>
    obtain ⟨ending, found, ends⟩ := inductionHypothesis nothing
    refine ⟨ending, ?_, ends⟩
    have newline : isLineBoundary '\n' := rfl
    have pair := begunLine_append_boundary newline [] front
    -- `\r\n` is one boundary of two characters, so the line begun is dropped once for both.
    rw [begunLine_append_boundary (by rfl), ← List.nil_append ('\n' :: front), pair]
    simpa [splitLinesFrom] using found
  | case2 char front pairless inductionHypothesis =>
    -- The pair was taken above, so a carriage return here is not followed by a line feed.
    have single : char = '\r' → (front ++ rest).head? ≠ some '\n' := by
      rintro rfl
      cases front with
      | nil => exact unpaired
      | cons next more =>
        rintro head
        exact pairless more rfl (by simpa using head)
    rw [List.cons_append, splitLinesFrom_cons single]
    by_cases boundary : isLineBoundary char
    · obtain ⟨ending, found, ends⟩ := inductionHypothesis nothing
      refine ⟨ending, ?_, ends⟩
      rw [if_pos boundary, if_pos boundary, begunLine_append_boundary boundary, Nat.add_comm,
        List.getElem?_cons_succ]
      exact found
    · have staying : ∀ next ∈ char :: begun, staysOnLine next :=
        List.forall_mem_cons.mpr ⟨by simp [staysOnLine, boundary], stays⟩
      obtain ⟨ending, found, ends⟩ := inductionHypothesis staying
      refine ⟨ending, ?_, ends⟩
      rw [if_neg boundary, if_neg boundary, Nat.zero_add]
      simpa using found
  | case3 =>
    -- The boundaries in front are used up: what was begun is the start of the line asked for.
    have something : begun ≠ [] ∨ rest ≠ [] := .inr nonempty
    obtain ⟨ending, first, ends⟩ := head?_splitLinesFrom something
    refine ⟨ending, ?_, ends⟩
    have reversed : ∀ char ∈ begun.reverse, staysOnLine char :=
      fun char member => stays char (List.mem_reverse.mp member)
    rw [List.nil_append, ← List.head?_eq_getElem?, first, List.append_nil,
      begunLine_of_forall reversed]

/-! ### Both ways to count -/

theorem newlinesOnly_cons {char : Char} {rest : List Char}
    (unpaired : char = '\r' → rest.head? ≠ some '\n') :
    NewlinesOnly (char :: rest) ↔ (isLineBoundary char → char = '\n') ∧ NewlinesOnly rest := by
  rw [NewlinesOnly]
  rintro more rfl rfl
  exact unpaired rfl rfl

/-- An editor finds a line boundary at every newline, and no others exactly if there are none. -/
theorem count_le_boundaries (text : List Char) :
    text.count '\n' ≤ boundaries text ∧
      (boundaries text = text.count '\n' ↔ NewlinesOnly text) := by
  fun_induction boundaries text with
  | case1 rest inductionHypothesis =>
    rw [NewlinesOnly, ← inductionHypothesis.2]
    simpa using inductionHypothesis.1
  | case2 char rest pairless inductionHypothesis =>
    have unpaired : char = '\r' → rest.head? ≠ some '\n' := by
      rintro rfl head
      obtain ⟨more, rfl⟩ := List.head?_eq_some_iff.mp head
      exact pairless more rfl rfl
    rw [newlinesOnly_cons unpaired, ← inductionHypothesis.2, List.count_cons]
    by_cases newline : char = '\n'
    · simp [newline, isLineBoundary]
      omega
    · by_cases boundary : isLineBoundary char
      · simp [newline, boundary]
        omega
      · simp [newline, boundary, inductionHypothesis.1]
  | case3 => simp [NewlinesOnly]

/-- Behind a newline the text has no other boundaries either. -/
theorem NewlinesOnly.behind_newline {front back : List Char}
    (only : NewlinesOnly (front ++ '\n' :: back)) : NewlinesOnly back := by
  fun_induction boundaries front with
  | case1 front inductionHypothesis =>
    exact inductionHypothesis (by simpa [NewlinesOnly] using only)
  | case2 char front pairless inductionHypothesis =>
    by_cases paired : char = '\r' ∧ front = []
    · obtain ⟨rfl, rfl⟩ := paired
      simpa [NewlinesOnly] using only
    · have unpaired : char = '\r' → (front ++ '\n' :: back).head? ≠ some '\n' := by
        rintro rfl
        cases front with
        | nil => exact absurd ⟨rfl, rfl⟩ paired
        | cons next more =>
          intro head
          exact pairless more rfl (by simpa using head)
      exact inductionHypothesis ((newlinesOnly_cons unpaired).mp only).2
  | case3 => simpa [NewlinesOnly] using only

/-- In such a text a line without a newline has no boundary at all. -/
theorem NewlinesOnly.staysOnLine {text : List Char} (only : NewlinesOnly text)
    (oneLine : '\n' ∉ text) : ∀ char ∈ text, staysOnLine char := by
  induction text with
  | nil => exact List.forall_mem_nil _
  | cons char rest inductionHypothesis =>
    rw [List.mem_cons, not_or] at oneLine
    have unpaired : char = '\r' → rest.head? ≠ some '\n' := by
      intro _ head
      exact oneLine.2 (List.mem_of_mem_head? head)
    obtain ⟨first, others⟩ := (newlinesOnly_cons unpaired).mp only
    intro other member
    rcases List.mem_cons.mp member with rfl | later
    · simpa [Text.staysOnLine] using fun boundary => oneLine.1 (first boundary).symm
    · exact inductionHypothesis others oneLine.2 other later

/-- There the begun line of an editor is the last line of the lexer. -/
theorem begunLine_eq_lastLine {text : List Char} (only : NewlinesOnly text) :
    begunLine text = lastLine text := by
  rcases oneLine_or_lastLine text with ⟨oneLine, same⟩ | ⟨earlier, same⟩
  · rw [same, begunLine_of_forall (only.staysOnLine oneLine)]
  · rw [same] at only
    have stays := only.behind_newline.staysOnLine (newline_not_mem_lastLine text)
    conv_lhs => rw [same]
    rw [begunLine_append_boundary rfl, begunLine_of_forall stays]

end Text

namespace Editor

/-- The place behind a front of a text, as an editor counts. -/
def placeBehind (front : List Char) : Nat × Nat :=
  (Text.boundaries front, Text.units (Text.begunLine front))

/-- Behind a front of a text, an editor counts newlines and characters exactly if it finds no other
line boundaries and the characters of the last line take one unit each. -/
theorem placeBehind_eq_iff {front : List Char} :
    placeBehind front = (front.count '\n', (Text.lastLine front).length) ↔
      Text.NewlinesOnly front ∧ ∀ char ∈ Text.lastLine front, Text.unitsOfChar char = 1 := by
  rw [placeBehind, Prod.mk.injEq, (Text.count_le_boundaries front).2]
  constructor
  · rintro ⟨only, width⟩
    rw [Text.begunLine_eq_lastLine only] at width
    exact ⟨only, Text.units_eq_length_iff.mp width⟩
  · rintro ⟨only, single⟩
    rw [Text.begunLine_eq_lastLine only]
    exact ⟨only, Text.units_eq_length_iff.mpr single⟩

/-! ### Words -/

/-- A boundary ends every word. -/
theorem isWordChar_of_isLineBoundary {char : Char} (boundary : Text.isLineBoundary char) :
    isWordChar char = false := by
  simp only [Text.isLineBoundary, List.mem_cons, List.not_mem_nil, or_false,
    decide_eq_true_eq] at boundary
  rcases boundary with rfl | rfl | rfl | rfl | rfl | rfl | rfl | rfl | rfl | rfl <;> decide

theorem staysOnLine_of_isWordChar {char : Char} (word : isWordChar char) :
    Text.staysOnLine char := by
  by_contra leaves
  have boundary : Text.isLineBoundary char := by simpa [Text.staysOnLine] using leaves
  rw [isWordChar_of_isLineBoundary boundary] at word
  cases word

/-- Behind a character that belongs to no word, no word has begun. -/
theorem wordBefore_eq_nil {text : List Char} (oneLine : '\n' ∉ text)
    (ends : ∀ char ∈ text.getLast?, isWordChar char = false) : wordBefore text = [] := by
  rw [← List.head?_reverse] at ends
  unfold wordBefore
  split
  · rename_i rest backwards
    exact absurd (List.mem_reverse.mp (backwards ▸ List.mem_cons_self)) oneLine
  · cases backwards : text.reverse with
    | nil => rfl
    | cons char rest =>
      rw [backwards] at ends
      simp [ends char rfl]

/-- A text without carriage returns is kept as it is. -/
theorem dropCarriageReturns_append {front : List Char} (plain : '\r' ∉ front) (back : List Char) :
    dropCarriageReturns (front ++ back) = front ++ dropCarriageReturns back := by
  induction front with
  | nil => rfl
  | cons char front inductionHypothesis =>
    rw [List.mem_cons, not_or] at plain
    rw [List.cons_append, dropCarriageReturns, inductionHypothesis plain.2, List.cons_append]
    rintro rest rfl _
    exact plain.1 rfl

/-- Counting units up to the end of a text counts its characters. -/
theorem charsToColumn_append {front : List Char} (plain : '\r' ∉ front) (back : List Char) :
    charsToColumn (front ++ back) (Text.units front) = front.length := by
  have inside : ¬ Text.units (front ++ dropCarriageReturns back) < Text.units front := by
    rw [Text.units_append]
    omega
  rw [charsToColumn, dropCarriageReturns_append plain, if_neg inside, Text.charsBefore_units]

/-- The word at the column where one begins. -/
theorem wordInLine_eq {front word back : List Char}
    (stays : ∀ char ∈ front, Text.staysOnLine char)
    (before : ∀ char ∈ front.getLast?, isWordChar char = false)
    (inside : ∀ char ∈ word, isWordChar char)
    (behind : ∀ char ∈ back.head?, isWordChar char = false) :
    wordInLine (front ++ (word ++ back)) (Text.units front) = word := by
  have absent : ∀ char, Text.isLineBoundary char → char ∉ front := by
    intro char boundary member
    have staying := stays char member
    simp [Text.staysOnLine, boundary] at staying
  have ended : back.takeWhile isWordChar = [] := by
    cases back with
    | nil => rfl
    | cons char rest => simp [behind char rfl]
  rw [wordInLine, charsToColumn_append (absent _ rfl), List.take_left, List.drop_left,
    wordBefore_eq_nil (absent _ rfl) before, List.takeWhile_append_of_pos inside, ended,
    List.append_nil, List.nil_append]

/-- Asked for the word at its own place behind a front of a text, an editor finds the word that
begins there. -/
theorem wordAt_placeBehind {text : String} {front word back : List Char}
    (whole : text.toList = front ++ (word ++ back)) (nonempty : word ≠ [])
    (before : ∀ char ∈ front.getLast?, isWordChar char = false)
    (inside : ∀ char ∈ word, isWordChar char)
    (behind : ∀ char ∈ back.head?, isWordChar char = false) :
    wordAt text (placeBehind front).1 (placeBehind front).2 = String.ofList word := by
  have unpaired : (word ++ back).head? ≠ some '\n' := by
    obtain ⟨first, others, rfl⟩ := List.exists_cons_of_ne_nil nonempty
    intro head
    obtain rfl : first = '\n' := by simpa using head
    exact absurd (inside '\n' List.mem_cons_self) (by decide)
  have nothing : ∀ char ∈ ([] : List Char), Text.staysOnLine char := List.forall_mem_nil _
  obtain ⟨ending, found, ends⟩ := Text.getElem?_splitLinesFrom front nothing
    (List.append_ne_nil_of_left_ne_nil nonempty back) unpaired
  -- The word stays on its line, and what follows it there is no part of it.
  have onLine : ∀ char ∈ word, Text.staysOnLine char :=
    fun char member => staysOnLine_of_isWordChar (inside char member)
  have stopped : ∀ char ∈ (back.takeWhile Text.staysOnLine ++ ending).head?,
      isWordChar char = false := by
    intro char head
    cases back with
    | nil => exact isWordChar_of_isLineBoundary (ends char head)
    | cons next rest =>
      by_cases stays : Text.staysOnLine next
      · rw [List.takeWhile_cons_of_pos stays] at head
        exact behind char head
      · rw [List.takeWhile_cons_of_neg stays] at head
        exact isWordChar_of_isLineBoundary (ends char head)
  have lastChar : ∀ char ∈ (Text.begunLine front).getLast?, isWordChar char = false := by
    intro char last
    obtain ⟨earlier, same⟩ : Text.begunLine front <:+ front := List.rtakeWhile_suffix _ _
    apply before char
    rw [← same, List.getLast?_append, Option.mem_def.mp last]
    rfl
  rw [List.reverse_nil, List.nil_append, List.takeWhile_append_of_pos onLine,
    List.append_assoc] at found
  rw [wordAt, placeBehind, Text.splitLines, whole, found]
  dsimp only
  rw [wordInLine_eq Text.staysOnLine_of_mem_begunLine lastChar inside stopped]

end Editor

end LineScript
