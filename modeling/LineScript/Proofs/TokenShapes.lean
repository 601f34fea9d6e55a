/-
Module: LineScript.Proofs.TokenShapes
Purpose: How the lexeme of a token is spelled, by its kind.
Trusted boundary: none
Main exports: TokenKind.spellings, TokenKind.wordless, cut_cases, cut_word
-/
import LineScript.Proofs.Relexing

/-!
A token is a newline, a literal, a word or an operator. A word is made of letters, digits and
underscores and tells its kind by itself; it is cut as long as it can be, so no such character
follows it. An operator or a delimiter is spelled as its kind says.
-/

namespace LineScript

/-- How operators and delimiters are spelled. -/
def TokenKind.spellings : List (TokenKind × List Char) :=
  [(.equalEqual, ['=', '=']), (.greaterEqual, ['>', '=']), (.lessEqual, ['<', '=']),
    (.notEqual, ['<', '>']), (.equal, ['=']), (.greater, ['>']), (.less, ['<']), (.plus, ['+']),
    (.minus, ['-']), (.star, ['*']), (.slash, ['/']), (.modulo, ['%']), (.concat, ['&']),
    (.dollar, ['$']), (.leftParen, ['(']), (.rightParen, [')']), (.comma, [',']), (.colon, [':'])]

/-- The kinds of newlines and of literals that are no words. -/
def TokenKind.wordless : List TokenKind :=
  [.newline, .integerLiteral, .floatLiteral, .stringLiteral, .charLiteral]

namespace Piece

variable {char : Char} {rest : List Char} {kind : TokenKind} {value : Option Value}

theorem pairKind?_spelling {first second : Char} (pair : pairKind? first second = some kind) :
    (kind, [first, second]) ∈ TokenKind.spellings := by
  unfold pairKind? at pair
  split at pair <;> cases pair <;> decide

theorem singleKind?_spelling (single : singleKind? char = some kind) :
    (kind, [char]) ∈ TokenKind.spellings := by
  unfold singleKind? at single
  split at single <;> cases single <;> decide

/-- A character that is a token by itself is spelled as its kind. -/
theorem cutSingle_spelling (role : (cutSingle char rest).1.role = .token kind value) :
    (kind, (cutSingle char rest).1.text) ∈ TokenKind.spellings := by
  revert role
  unfold cutSingle
  split
  · rename_i found single
    intro role
    cases role
    exact singleKind?_spelling single
  · intro impossible
    cases impossible

/-- So is every operator that is cut off. -/
theorem cutOperator_spelling (role : (cutOperator char rest).1.role = .token kind value) :
    (kind, (cutOperator char rest).1.text) ∈ TokenKind.spellings := by
  revert role
  unfold cutOperator
  split
  · split
    · rename_i found pair
      intro role
      cases role
      exact pairKind?_spelling pair
    · exact cutSingle_spelling
  · exact cutSingle_spelling

/-- A word tells its kind, and what it denotes, by itself. -/
theorem cutWord_kind (role : (cutWord char rest).1.role = .token kind value) :
    kind = .ofWord (String.ofList (cutWord char rest).1.text) ∧ value = kind.wordLiteral? := by
  obtain ⟨sameKind, sameValue⟩ := PieceRole.token.inj role
  exact ⟨sameKind.symm, by rw [← sameValue, sameKind]⟩

/-- A number has no kind of a word, for it is no letter that it starts with. -/
theorem cutNumber_wordless (role : (cutNumber char rest).1.role = .token kind value) :
    kind ∈ TokenKind.wordless := by
  rcases cutNumber_cases char rest with whole | ⟨digit, more, _, parted⟩
  · rw [whole, integer] at role
    split at role
    · cases role
    · cases role
      decide
  · rw [parted] at role
    cases role
    decide

theorem cutString_wordless (role : (cutString char rest).1.role = .token kind value) :
    kind ∈ TokenKind.wordless := by
  obtain ⟨units, more, rfl⟩ := exists_units_of_cutString role
  rw [cutString_units] at role
  cases role
  decide

/-- A character in quotes is a literal or rejected. -/
theorem cutCharacter_wordless (role : (cutCharacter char rest).1.role = .token kind value) :
    kind ∈ TokenKind.wordless := by
  obtain ⟨inside, more, other, rfl⟩ := exists_of_cutCharacter role
  rw [cutCharacter_closed other] at role
  cases role
  decide

theorem cutEscape_wordless (role : (cutEscape char rest).1.role = .token kind value) :
    kind ∈ TokenKind.wordless := by
  obtain ⟨letter, more, other, rfl⟩ := exists_of_cutEscape role
  rw [cutEscape_closed other] at role
  cases role
  decide

/-- What is cut off as a token is a newline or a literal, a word, or an operator. -/
theorem cut_cases (role : (cut char rest).1.role = .token kind value) :
    kind ∈ TokenKind.wordless ∨
      (cut char rest = cutWord char rest ∧ startsWord char) ∨
      (kind, (cut char rest).1.text) ∈ TokenKind.spellings := by
  revert role
  unfold cut
  split
  · intro impossible
    cases impossible
  split
  · intro newline
    cases newline
    exact .inl (by decide)
  split
  · intro impossible
    cases impossible
  split
  · exact fun number => .inl (cutNumber_wordless number)
  split
  · exact fun string => .inl (cutString_wordless string)
  split
  · exact fun character => .inl (cutCharacter_wordless character)
  split
  · exact fun escape => .inl (cutEscape_wordless escape)
  split
  · rename_i starts
    exact fun _ => .inr (.inl ⟨rfl, starts⟩)
  · exact fun role => .inr (.inr (cutOperator_spelling role))

/-- What has one fixed spelling of signs is no word. -/
theorem kind_of_spelling {text : List Char} (spelled : (kind, text) ∈ TokenKind.spellings) :
    kind ∉ .identifier :: TokenKind.keywords := by
  have none : ∀ spelling ∈ TokenKind.spellings,
      spelling.1 ∉ .identifier :: TokenKind.keywords := by decide
  exact none _ spelled

theorem kind_of_wordless (wordless : kind ∈ TokenKind.wordless) :
    kind ∉ .identifier :: TokenKind.keywords := by
  have none : ∀ kind ∈ TokenKind.wordless, kind ∉ .identifier :: TokenKind.keywords := by decide
  exact none _ wordless

/-- A token of a word's kind is cut off by the rule for words. -/
theorem cut_of_word (role : (cut char rest).1.role = .token kind value)
    (word : kind ∈ .identifier :: TokenKind.keywords) :
    cut char rest = cutWord char rest ∧ startsWord char := by
  rcases cut_cases role with wordless | isWord | spelled
  · exact absurd word (kind_of_wordless wordless)
  · exact isWord
  · exact absurd word (kind_of_spelling spelled)

/-- The characters that start a word may also go on with it. -/
theorem continuesWord_of_startsWord (starts : startsWord char) : continuesWord char := by
  unfold startsWord at starts
  unfold continuesWord Char.isAlphanum
  simp only [Bool.or_eq_true] at starts ⊢
  rcases starts with letter | underscore
  · exact .inl (.inl letter)
  · exact .inr underscore

/-- A word is as long as it can be. -/
theorem cut_word (role : (cut char rest).1.role = .token kind value)
    (word : kind ∈ .identifier :: TokenKind.keywords) :
    (∀ inside ∈ (cut char rest).1.text, continuesWord inside) ∧
      ∀ next ∈ (cut char rest).2.head?, continuesWord next = false := by
  obtain ⟨same, starts⟩ := cut_of_word role word
  rw [same]
  constructor
  · intro inside member
    rcases List.mem_cons.mp member with rfl | later
    · exact continuesWord_of_startsWord starts
    · exact List.mem_takeWhile_imp later
  · exact fun next head => head_dropWhile next head

end Piece

end LineScript
