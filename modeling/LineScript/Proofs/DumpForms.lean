/-
Module: LineScript.Proofs.DumpForms
Purpose: The forms that a dump shows, and that they are told by their text.
Trusted boundary: none
Main exports: Form, Shown, Laid, Shown.append_inj, Laid.append_inj
-/
import LineScript.Proofs.QuotedTexts

/-!
A dump shows words, quoted texts and lists in parentheses. How many blanks and line breaks stand
between the parts of a list is left open: `Shown` and `Laid` are relations between forms and texts.
Still no text shows two forms. The first character of a form tells its kind, a word and a gap run
as far as they can, and a list goes on as long as a gap follows.
-/

namespace LineScript

/-- What a dump shows: a word, a quoted text, or a list in parentheses with a word in front. -/
inductive Form where
  | word (text : String)
  | quoted (content : String)
  | list (head : String) (parts : List Form)

namespace Form

/-- The characters between the parts of a list. -/
def blanks : List Char := [' ', '\n']

/-- The characters that are not part of a word. -/
def structural : List Char := [' ', '\n', '(', ')', '\'', '"']

theorem structural_of_blank : ∀ char ∈ blanks, char ∈ structural := by
  simp [blanks, structural]

theorem structural_of_mark : ∀ char ∈ Text.Quoted.marks, char ∈ structural := by
  simp [Text.Quoted.marks, structural]

/-- A text between two parts of a list. -/
def IsGap (text : List Char) : Prop :=
  text ≠ [] ∧ ∀ char ∈ text, char ∈ blanks

/-- A text that is shown as it is. -/
def IsBare (text : List Char) : Prop :=
  text ≠ [] ∧ ∀ char ∈ text, char ∉ structural

instance (text : List Char) : Decidable (IsBare text) :=
  decidable_of_iff (text ≠ [] ∧ text.all fun char => !structural.contains char) (by simp [IsBare])

mutual

/-- The text shows the form. -/
inductive Shown : Form → List Char → Prop where
  | word {text : String} (bare : IsBare text.toList) : Shown (.word text) text.toList
  | quoted (content : String) : Shown (.quoted content) (Text.Quoted.encode content.toList)
  | list (head : String) {parts : List Form} {inside : List Char} (bare : IsBare head.toList)
      (laid : Laid parts inside) :
      Shown (.list head parts) ('(' :: (head.toList ++ (inside ++ [')'])))

/-- The text shows the forms one after the other, with a gap in front of each. -/
inductive Laid : List Form → List Char → Prop where
  | nil : Laid [] []
  | cons {gap text behind : List Char} {form : Form} {others : List Form} (blank : IsGap gap)
      (first : Shown form text) (laid : Laid others behind) :
      Laid (form :: others) (gap ++ (text ++ behind))

end

/-! ### Where parts begin and end -/

/-- The form may begin with the character. -/
def Opens (char : Char) : Form → Prop
  | .word _ => char ∉ structural
  | .quoted _ => char ∈ Text.Quoted.marks
  | .list _ _ => char = '('

/-- Nothing may follow but the end of a list. -/
def Closes (rest : List Char) : Prop :=
  ∀ char ∈ rest.head?, char = ')'

/-- What follows begins with a character that is not part of a word, if there is any. -/
def Stops (rest : List Char) : Prop :=
  ∀ char ∈ rest.head?, char ∈ structural

variable {form other : Form} {forms others : List Form} {text item rest more : List Char}

/-- A form starts with the character that tells which kind it is. -/
theorem Shown.opens (shown : form.Shown text) :
    ∃ char behind, text = char :: behind ∧ form.Opens char := by
  cases shown with
  | word bare =>
    obtain ⟨char, behind, same⟩ := List.exists_cons_of_ne_nil bare.1
    exact ⟨char, behind, same, bare.2 char (same ▸ List.mem_cons_self)⟩
  | quoted content => exact ⟨_, _, rfl, Text.Quoted.quoteMark_mem _⟩
  | list head bare laid => exact ⟨_, _, rfl, rfl⟩

/-- No form starts with a blank. -/
theorem not_mem_blanks_of_opens {char : Char} (opens : form.Opens char) : char ∉ blanks := by
  cases form with
  | word text => exact fun blank => opens (structural_of_blank char blank)
  | quoted content =>
    have apart : ∀ mark ∈ Text.Quoted.marks, mark ∉ blanks := by
      simp [Text.Quoted.marks, blanks]
    exact apart char opens
  | list head parts =>
    obtain rfl : char = '(' := opens
    decide

/-- A gap opens with a blank. -/
theorem IsGap.exists_blank (gap : IsGap text) :
    ∃ char behind, text = char :: behind ∧ char ∈ blanks := by
  obtain ⟨char, behind, same⟩ := List.exists_cons_of_ne_nil gap.1
  exact ⟨char, behind, same, gap.2 char (same ▸ List.mem_cons_self)⟩

theorem closes_nil : Closes [] := by
  simp [Closes]

/-- What closes a list stops a word. -/
theorem Closes.stops (closes : Closes rest) : Stops rest := by
  intro char first
  rw [closes char first]
  decide

theorem Laid.stops (laid : Laid forms text) (closes : Closes rest) : Stops (text ++ rest) := by
  cases laid with
  | nil => exact closes.stops
  | cons blank first laid =>
    obtain ⟨char, behind, rfl, isBlank⟩ := blank.exists_blank
    rintro other head
    obtain rfl : char = other := by simpa using head
    exact structural_of_blank char isBlank

/-- Behind the last part of a list nothing begins another one. -/
theorem Laid.ne_of_closes (laid : Laid (form :: forms) text) (closes : Closes rest) :
    rest ≠ text ++ more := by
  rintro rfl
  cases laid with
  | cons blank first laid =>
    obtain ⟨char, behind, rfl, isBlank⟩ := blank.exists_blank
    obtain rfl : char = ')' := closes char rfl
    exact absurd isBlank (by decide)

/-- A part is longer than the gap in front of it. -/
theorem Laid.one_lt_length (laid : Laid (form :: forms) text) : 1 < text.length := by
  cases laid with
  | cons blank first laid =>
    obtain ⟨char, behind, rfl, -⟩ := blank.exists_blank
    obtain ⟨opening, inside, rfl, -⟩ := first.opens
    simp only [List.length_append, List.length_cons]
    omega

/-! ### No text shows two forms -/

/-- Two texts with the same sort of characters that are followed by none of it are the same if
they begin the same text. -/
theorem run_append_inj {sort : Char → Prop} {one two : List Char}
    (oneRun : ∀ char ∈ one, sort char) (twoRun : ∀ char ∈ two, sort char)
    (oneStops : ∀ char ∈ rest.head?, ¬ sort char) (twoStops : ∀ char ∈ more.head?, ¬ sort char)
    (same : one ++ rest = two ++ more) : one = two ∧ rest = more := by
  induction one generalizing two with
  | nil =>
    cases two with
    | nil => exact ⟨rfl, same⟩
    | cons char behind =>
      obtain rfl : rest = char :: (behind ++ more) := same
      exact absurd (twoRun char List.mem_cons_self) (oneStops char rfl)
  | cons char behind inductionHypothesis =>
    cases two with
    | nil =>
      obtain rfl : char :: (behind ++ rest) = more := same
      exact absurd (oneRun char List.mem_cons_self) (twoStops char rfl)
    | cons second others =>
      obtain ⟨rfl, further⟩ := List.cons.inj same
      obtain ⟨rfl, sameRest⟩ := inductionHypothesis (List.forall_mem_cons.mp oneRun).2
        (List.forall_mem_cons.mp twoRun).2 further
      exact ⟨rfl, sameRest⟩

/-- Two bare words are told apart by where they stop. -/
theorem IsBare.append_inj {one two : String} (oneBare : IsBare one.toList)
    (twoBare : IsBare two.toList) (oneStops : Stops rest) (twoStops : Stops more)
    (same : one.toList ++ rest = two.toList ++ more) : one = two ∧ rest = more := by
  obtain ⟨sameText, sameRest⟩ := run_append_inj oneBare.2 twoBare.2
    (fun char first => not_not_intro (oneStops char first))
    (fun char first => not_not_intro (twoStops char first)) same
  exact ⟨String.toList_inj.mp sameText, sameRest⟩

/-- Two forms that begin the same text begin with the same character. -/
theorem exists_opens (shown : form.Shown text) (otherShown : other.Shown item)
    (same : text ++ rest = item ++ more) : ∃ char, form.Opens char ∧ other.Opens char := by
  obtain ⟨char, behind, rfl, opens⟩ := shown.opens
  obtain ⟨second, further, rfl, otherOpens⟩ := otherShown.opens
  obtain ⟨rfl, -⟩ := List.cons.inj same
  exact ⟨char, opens, otherOpens⟩

theorem not_opens_word_quoted {char : Char} {word content : String} :
    ¬ ((Form.word word).Opens char ∧ (Form.quoted content).Opens char) :=
  fun both => both.1 (structural_of_mark char both.2)

theorem not_opens_word_list {char : Char} {word head : String} {parts : List Form} :
    ¬ ((Form.word word).Opens char ∧ (Form.list head parts).Opens char) := by
  rintro ⟨outside, rfl⟩
  exact outside (by decide)

theorem not_opens_quoted_list {char : Char} {content head : String} {parts : List Form} :
    ¬ ((Form.quoted content).Opens char ∧ (Form.list head parts).Opens char) := by
  rintro ⟨mark, rfl⟩
  exact absurd (show '(' ∈ Text.Quoted.marks from mark) (by decide)

mutual

/-- No text shows two forms, nor does the front of one. -/
theorem Shown.append_inj :
    ∀ {form other : Form} {text item rest more : List Char}, form.Shown text → other.Shown item →
      Stops rest → Stops more → text ++ rest = item ++ more → form = other ∧ rest = more
  | _, _, _, _, _, _, .word bare, .word otherBare, stops, otherStops, same => by
    obtain ⟨rfl, sameRest⟩ := bare.append_inj otherBare stops otherStops same
    exact ⟨rfl, sameRest⟩
  | _, _, _, _, _, _, .quoted _, .quoted _, _, _, same => by
    obtain ⟨sameContent, sameRest⟩ := Text.Quoted.encode_append_inj same
    rw [String.toList_inj.mp sameContent]
    exact ⟨rfl, sameRest⟩
  | _, _, _, _, rest, more, .list head bare laid, .list _ otherBare otherLaid, _, _, same => by
    have ends : ∀ following, Closes (')' :: following) := by
      rintro following char first
      exact (Option.some.inj first).symm
    simp only [List.cons_append, List.append_assoc, List.nil_append, List.cons.injEq,
      true_and] at same
    -- The word in front ends where the first gap or the end of the list begins.
    obtain ⟨rfl, further⟩ :=
      bare.append_inj otherBare (laid.stops (ends rest)) (otherLaid.stops (ends more)) same
    obtain ⟨rfl, sameRest⟩ := laid.append_inj otherLaid (ends rest) (ends more) further
    exact ⟨rfl, (List.cons.inj sameRest).2⟩
  -- Forms of two kinds begin with different characters, so the six mixed cases are refuted.
  | _, _, _, _, _, _, .word bare, .quoted content, _, _, same => by
    obtain ⟨char, both⟩ := exists_opens (.word bare) (.quoted content) same
    exact absurd both not_opens_word_quoted
  | _, _, _, _, _, _, .quoted content, .word bare, _, _, same => by
    obtain ⟨char, both⟩ := exists_opens (.quoted content) (.word bare) same
    exact absurd both.symm not_opens_word_quoted
  | _, _, _, _, _, _, .word bare, .list head headBare laid, _, _, same => by
    obtain ⟨char, both⟩ := exists_opens (.word bare) (.list head headBare laid) same
    exact absurd both not_opens_word_list
  | _, _, _, _, _, _, .list head headBare laid, .word bare, _, _, same => by
    obtain ⟨char, both⟩ := exists_opens (.list head headBare laid) (.word bare) same
    exact absurd both.symm not_opens_word_list
  | _, _, _, _, _, _, .quoted content, .list head headBare laid, _, _, same => by
    obtain ⟨char, both⟩ := exists_opens (.quoted content) (.list head headBare laid) same
    exact absurd both not_opens_quoted_list
  | _, _, _, _, _, _, .list head headBare laid, .quoted content, _, _, same => by
    obtain ⟨char, both⟩ := exists_opens (.list head headBare laid) (.quoted content) same
    exact absurd both.symm not_opens_quoted_list

/-- No text shows two lists of forms, and nothing that closes a list belongs to them. -/
theorem Laid.append_inj :
    ∀ {forms others : List Form} {text item rest more : List Char}, Laid forms text →
      Laid others item → Closes rest → Closes more → text ++ rest = item ++ more →
      forms = others ∧ rest = more
  | _, _, _, _, _, _, .nil, .nil, _, _, same => ⟨rfl, same⟩
  | _, _, _, _, _, _, .nil, .cons blank first laid, closes, _, same =>
    absurd same (Laid.ne_of_closes (.cons blank first laid) closes)
  | _, _, _, _, _, _, .cons blank first laid, .nil, _, closes, same =>
    absurd same.symm (Laid.ne_of_closes (.cons blank first laid) closes)
  | _, _, _, _, rest, more, .cons blank first laid, .cons otherBlank otherFirst otherLaid, closes,
      otherCloses, same => by
    -- No part begins with a blank, so a gap goes as far as there are blanks.
    have ends : ∀ {form : Form} {text following : List Char}, form.Shown text →
        ∀ char ∈ (text ++ following).head?, char ∉ blanks := by
      intro form text following shown char head
      obtain ⟨opening, behind, rfl, opens⟩ := shown.opens
      obtain rfl : opening = char := by simpa using head
      exact not_mem_blanks_of_opens opens
    simp only [List.append_assoc] at same
    obtain ⟨-, further⟩ :=
      run_append_inj blank.2 otherBlank.2 (ends first) (ends otherFirst) same
    obtain ⟨rfl, behind⟩ := first.append_inj otherFirst (laid.stops closes)
      (otherLaid.stops otherCloses) further
    obtain ⟨rfl, sameRest⟩ := laid.append_inj otherLaid closes otherCloses behind
    exact ⟨rfl, sameRest⟩

end

end Form

end LineScript
