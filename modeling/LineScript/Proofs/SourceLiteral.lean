/-
Module: LineScript.Proofs.SourceLiteral
Purpose: What stands in a source text as a literal.
Trusted boundary: none
Main exports: Value.Denotable, cut_denotable, lex_denotable, lex_printable
-/
import Mathlib
import LineScript.Proofs.SourceTiling

/-!
A token denotes a truth value, a text, a double or a natural number: the sign in front of a number
is an operator. An integer with too many digits for print is rejected when the source text is cut
into pieces, so no token of a source text denotes one.
-/

namespace LineScript

/-- Digits of a given number stay below the power of ten that follows them. -/
theorem Text.digitsValue_lt (digits : List Char) :
    Text.digitsValue digits < 10 ^ digits.length := by
  have general : ∀ total, digits.foldl (fun total char =>
      10 * total + (Text.digitValue? char).getD 0) total < (total + 1) * 10 ^ digits.length := by
    induction digits with
    | nil => simp
    | cons char rest inductionHypothesis =>
      intro total
      have digit : (Text.digitValue? char).getD 0 < 10 := by
        cases found : Text.digitValue? char with
        | none => decide
        | some value => exact Text.digitValue?_lt_ten found
      have grown := inductionHypothesis (10 * total + (Text.digitValue? char).getD 0)
      have bounded : 10 * total + (Text.digitValue? char).getD 0 + 1 ≤ 10 * (total + 1) := by omega
      rw [List.foldl_cons, List.length_cons, Nat.pow_succ, Nat.mul_comm _ 10, ← Nat.mul_assoc,
        Nat.mul_comm _ 10]
      exact Nat.lt_of_lt_of_le grown (Nat.mul_le_mul_right _ bounded)
  have whole := general 0
  rwa [Nat.zero_add, Nat.one_mul] at whole

theorem Text.digitsValue_lt_pow {digits : List Char} {limit : Nat}
    (short : digits.length ≤ limit) : Text.digitsValue digits < Nat.pow 10 limit :=
  Nat.lt_of_lt_of_le (Text.digitsValue_lt digits) (Nat.pow_le_pow_right (by decide) short)

/-- What a token of a source text may denote. Integers are natural numbers that do not have too many
digits for print. -/
inductive Value.Denotable : Value → Prop where
  | bool (truth : Bool) : Denotable (.bool truth)
  | int {number : Nat} (small : number < leastUnprintable) : Denotable (.int number)
  | float (number : Float) : Denotable (.float number)
  | text (content : String) : Denotable (.text content)

/-- A value that a literal denotes can be written out again. -/
theorem Value.Denotable.isPrintable {value : Value} (denotable : value.Denotable) :
    value.isPrintable := by
  cases denotable with
  | int small =>
    rename_i number
    show decide ((number : Int).natAbs < leastUnprintable) = true
    rw [Int.natAbs_natCast]
    exact decide_eq_true small
  | bool truth => rfl
  | float number => rfl
  | text content => rfl

/-- What a piece that is a token denotes is denotable, if it denotes anything. -/
def Piece.Denotable (piece : Piece) : Prop :=
  ∀ kind value, piece.role = .token kind (some value) → value.Denotable

namespace Piece

/-- The length of a run of digits is checked before its value is taken. -/
theorem integer_denotable (digits : List Char) : (integer digits).Denotable := by
  intro kind value role
  unfold integer at role
  split at role
  · cases role
  · rename_i short
    cases role
    refine .int ?_
    unfold leastUnprintable
    exact Text.digitsValue_lt_pow (Nat.le_of_not_lt short)

theorem gap_denotable (text : List Char) : Denotable ⟨.gap, text⟩ := by
  intro kind value role
  cases role

/-- A rejected fragment carries no value. -/
theorem reject_denotable (message : String) (text : List Char) :
    (reject message text).Denotable := by
  intro kind value role
  cases role

/-- Nor does a word or an operator. -/
theorem plain_denotable (kind : TokenKind) (text : List Char) : (plain kind text).Denotable := by
  intro kind value role
  cases role

theorem text_denotable (kind : TokenKind) (content : String) (text : List Char) :
    (literal kind (.text content) text).Denotable := by
  intro kind value role
  cases role
  exact .text content

/-- A number is an integer of bounded length or a decimal read by the rule for doubles. -/
theorem cutNumber_denotable (char : Char) (rest : List Char) :
    (cutNumber char rest).1.Denotable := by
  unfold cutNumber
  split
  · split
    · intro kind value role
      cases role
      exact .float _
    · exact integer_denotable _
  · exact integer_denotable _

/-- The content of a string is a text, and any text may be a literal. -/
theorem cutString_denotable (char : Char) (rest : List Char) :
    (cutString char rest).1.Denotable := by
  unfold cutString
  dsimp only
  split
  · exact text_denotable _ _ _
  · exact reject_denotable _ _

theorem cutCharacter_denotable (char : Char) (rest : List Char) :
    (cutCharacter char rest).1.Denotable := by
  unfold cutCharacter
  dsimp only
  split
  · split
    · exact reject_denotable _ _
    · split
      · exact text_denotable _ _ _
      · exact reject_denotable _ _
  · exact reject_denotable _ _

theorem cutEscape_denotable (char : Char) (rest : List Char) :
    (cutEscape char rest).1.Denotable := by
  unfold cutEscape
  split
  · split
    · exact reject_denotable _ _
    · split
      · exact text_denotable _ _ _
      · exact reject_denotable _ _
  · exact reject_denotable _ _

/-- Of the words, TRUE and FALSE alone carry a value. -/
theorem cutWord_denotable (char : Char) (rest : List Char) :
    (cutWord char rest).1.Denotable := by
  intro kind value role
  unfold cutWord at role
  simp only [PieceRole.token.injEq] at role
  have denoted := role.2
  unfold TokenKind.wordLiteral? at denoted
  split at denoted
  · cases denoted
    exact .bool true
  · cases denoted
    exact .bool false
  · cases denoted

theorem cutSingle_denotable (char : Char) (rest : List Char) :
    (cutSingle char rest).1.Denotable := by
  unfold cutSingle
  split
  · exact plain_denotable _ _
  · exact reject_denotable _ _

/-- An operator of one character or of two carries no value. -/
theorem cutOperator_denotable (char : Char) (rest : List Char) :
    (cutOperator char rest).1.Denotable := by
  unfold cutOperator
  split
  · split
    · exact plain_denotable _ _
    · exact cutSingle_denotable char _
  · exact cutSingle_denotable char _

/-- Only a number literal denotes an integer, and one with too many digits is no token. -/
theorem cut_denotable (char : Char) (rest : List Char) : (cut char rest).1.Denotable := by
  unfold cut
  split
  · exact gap_denotable _
  split
  · exact plain_denotable _ _
  split
  · exact gap_denotable _
  split
  · exact cutNumber_denotable char rest
  split
  · exact cutString_denotable char rest
  split
  · exact cutCharacter_denotable char rest
  split
  · exact cutEscape_denotable char rest
  split
  · exact cutWord_denotable char rest
  · exact cutOperator_denotable char rest

end Piece

/-- What the tokens of a source text denote is denotable. -/
theorem lex_denotable (source : String) :
    ∀ token ∈ (lex source).tokens, ∀ value, token.literal = some value → value.Denotable := by
  intro token member value denoted
  rw [lex_eq] at member
  rcases List.mem_append.mp member with placed | last
  · obtain ⟨_, char, rest, kind, literal, role, rfl⟩ := exists_cut_of_token placed
    exact Piece.cut_denotable char rest kind value (role.trans (congrArg _ denoted))
  · rw [List.mem_singleton.mp last] at denoted
    cases denoted

/-- No token of a source text denotes an integer with too many digits for print. -/
theorem lex_printable (source : String) :
    ∀ token ∈ (lex source).tokens, ∀ value, token.literal = some value → value.isPrintable :=
  fun token member value denoted => (lex_denotable source token member value denoted).isPrintable

end LineScript
