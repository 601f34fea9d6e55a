/-
Module: LineScript.Proofs.QuotedTexts
Purpose: A quoted text tells the text and where it ends.
Trusted boundary: none
Main exports: readCodePoint, readChar, readChar_encodeChar, encode_append_inj
-/
import Mathlib.Algebra.GroupWithZero.Nat
import Mathlib.Tactic.SplitIfs
import LineScript.Text.Quoted

/-!
Between the quotes every character is written by itself, so it is enough that what is written for
one character can be read back in front of anything. The character behind a backslash says which
escape it is, and with that how many hexadecimal digits belong to it. The quote that ends the text
starts none of what is written for a character.
-/

namespace LineScript.Text.Quoted

/-! ### Hexadecimal digits -/

/-- The value of a lower-case hexadecimal digit. -/
def hexDigitValue (digit : Char) : Nat :=
  if digit.isDigit then digit.toNat - '0'.toNat else digit.toNat - 'a'.toNat + 10

/-- The number that hexadecimal digits denote, the most significant first. -/
def hexValue (digits : List Char) : Nat :=
  digits.foldl (fun total digit => total * 16 + hexDigitValue digit) 0

theorem hexDigitValue_hexDigit (value : Nat) : hexDigitValue (hexDigit value) = value % 16 := by
  have digits : ∀ digit < 16, hexDigitValue (Nat.digitChar digit) = digit := by decide
  exact digits (value % 16) (Nat.mod_lt value (by decide))

theorem length_hexDigits (count value : Nat) : (hexDigits count value).length = count := by
  induction count generalizing value with
  | zero => rfl
  | succ count inductionHypothesis =>
    rw [hexDigits, List.length_append, inductionHypothesis, List.length_singleton]

/-- A number is denoted by its digits, if they are enough. -/
theorem hexValue_hexDigits (count value : Nat) :
    hexValue (hexDigits count value) = value % 16 ^ count := by
  induction count generalizing value with
  | zero => rw [Nat.pow_zero, Nat.mod_one]; rfl
  | succ count inductionHypothesis =>
    have front : hexValue (hexDigits (count + 1) value) =
        hexValue (hexDigits count (value / 16)) * 16 + hexDigitValue (hexDigit value) :=
      List.foldl_append
    rw [front, inductionHypothesis, hexDigitValue_hexDigit, Nat.pow_succ,
      Nat.mul_comm (16 ^ count) 16, Nat.mod_mul]
    omega

/-! ### One character -/

/-- A character whose code point is written in the given count of digits, and what follows. -/
def readCodePoint (count : Nat) (text : List Char) : Char × List Char :=
  (Char.ofNat (hexValue (text.take count)), text.drop count)

/-- The character that the front of a text between quotes stands for, and what follows. -/
def readChar : List Char → Option (Char × List Char)
  | '\\' :: 'n' :: rest => some ('\n', rest)
  | '\\' :: 'r' :: rest => some ('\r', rest)
  | '\\' :: 't' :: rest => some ('\t', rest)
  | '\\' :: 'x' :: rest => some (readCodePoint 2 rest)
  | '\\' :: 'u' :: rest => some (readCodePoint 4 rest)
  | '\\' :: 'U' :: rest => some (readCodePoint 8 rest)
  | '\\' :: char :: rest => some (char, rest)
  | char :: rest => some (char, rest)
  | [] => none

theorem readCodePoint_hexDigits (count : Nat) {char : Char} (enough : char.toNat < 16 ^ count)
    (rest : List Char) :
    readCodePoint count (hexDigits count char.toNat ++ rest) = (char, rest) := by
  have length := length_hexDigits count char.toNat
  rw [readCodePoint, List.take_left' length, List.drop_left' length, hexValue_hexDigits,
    Nat.mod_eq_of_lt enough, Char.ofNat_toNat]

theorem readChar_codePointEscape (char : Char) (rest : List Char) :
    readChar (codePointEscape char ++ rest) = some (char, rest) := by
  unfold codePointEscape
  split
  · rename_i two
    exact congrArg some (readCodePoint_hexDigits 2 two rest)
  split
  · rename_i four
    exact congrArg some (readCodePoint_hexDigits 4 four rest)
  · have eight : char.toNat < 16 ^ 8 := char.val.toNat_lt
    exact congrArg some (readCodePoint_hexDigits 8 eight rest)

variable {mark : Char}

/-- The quotes that a text may stand between. -/
def marks : List Char := ['\'', '"']

/-- What is written for a character between quotes is read as this character. -/
theorem readChar_encodeChar (quote : mark ∈ marks) (char : Char) (rest : List Char) :
    readChar (encodeChar mark char ++ rest) = some (char, rest) := by
  unfold encodeChar
  split
  · rename_i marked
    have listed : char ∈ '\\' :: marks := by
      rcases marked with rfl | rfl
      · exact List.mem_cons_self
      · exact List.mem_cons_of_mem _ quote
    simp only [marks, List.mem_cons, List.not_mem_nil, or_false] at listed
    rcases listed with rfl | rfl | rfl <;> rfl
  rename_i unmarked
  split
  · rename_i newline
    rw [newline]
    rfl
  split
  · rename_i carriage
    rw [carriage]
    rfl
  split
  · rename_i tab
    rw [tab]
    rfl
  split
  · have other : char ≠ '\\' := fun backslash => unmarked (.inl backslash)
    simp [readChar, other]
  · exact readChar_codePointEscape char rest

theorem quoteMark_mem (text : List Char) : quoteMark text ∈ marks := by
  unfold quoteMark
  split <;> decide

/-- What is written for a character does not start with the quote. -/
theorem exists_encodeChar_cons (quote : mark ∈ marks) (char : Char) :
    ∃ first rest, encodeChar mark char = first :: rest ∧ first ≠ mark := by
  have backslash : '\\' ≠ mark := by
    rintro rfl
    exact absurd quote (by decide)
  unfold encodeChar codePointEscape
  split
  · exact ⟨_, _, rfl, backslash⟩
  rename_i unmarked
  split_ifs
  · exact ⟨_, _, rfl, backslash⟩
  · exact ⟨_, _, rfl, backslash⟩
  · exact ⟨_, _, rfl, backslash⟩
  · exact ⟨_, _, rfl, fun same => unmarked (.inr same)⟩
  · exact ⟨_, _, rfl, backslash⟩
  · exact ⟨_, _, rfl, backslash⟩
  · exact ⟨_, _, rfl, backslash⟩

/-! ### Whole texts -/

theorem flatMap_encodeChar_inj (quote : mark ∈ marks) {one two rest more : List Char}
    (same : one.flatMap (encodeChar mark) ++ mark :: rest =
      two.flatMap (encodeChar mark) ++ mark :: more) :
    one = two ∧ rest = more := by
  induction one generalizing two with
  | nil =>
    cases two with
    | nil => exact ⟨rfl, (List.cons.inj same).2⟩
    | cons char others =>
      obtain ⟨first, inside, written, different⟩ := exists_encodeChar_cons quote char
      rw [List.flatMap_cons, written] at same
      exact absurd (List.cons.inj same).1.symm different
  | cons char others inductionHypothesis =>
    cases two with
    | nil =>
      obtain ⟨first, inside, written, different⟩ := exists_encodeChar_cons quote char
      rw [List.flatMap_cons, written] at same
      exact absurd (List.cons.inj same).1 different
    | cons second behind =>
      rw [List.flatMap_cons, List.flatMap_cons, List.append_assoc, List.append_assoc] at same
      have read := congrArg readChar same
      rw [readChar_encodeChar quote, readChar_encodeChar quote, Option.some.injEq,
        Prod.mk.injEq] at read
      obtain ⟨rfl, further⟩ := read
      obtain ⟨rfl, sameRest⟩ := inductionHypothesis further
      exact ⟨rfl, sameRest⟩

/-- Whatever follows a quoted text, it is one text that is quoted there. -/
theorem encode_append_inj {one two rest more : List Char}
    (same : encode one ++ rest = encode two ++ more) : one = two ∧ rest = more := by
  unfold encode at same
  simp only [List.cons_append, List.append_assoc, List.nil_append, List.cons.injEq] at same
  obtain ⟨sameMark, inside⟩ := same
  rw [← sameMark] at inside
  exact flatMap_encodeChar_inj (quoteMark_mem one) inside

end LineScript.Text.Quoted
