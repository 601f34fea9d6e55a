/-
Module: LineScript.Proofs.OneLine
Purpose: Texts without a newline, and that what messages show is such a text.
Trusted boundary: none
Main exports: OneLine, oneLine_quoted, OneLine.framed
-/
import LineScript.Expr.Basic
import Mathlib.Data.List.Basic

/-!
A message is echoed as one line. It is put together from fixed words, labels, numbers, quoted texts
and printed expressions, and none of these holds a newline, whatever the program and its input are.
-/

namespace LineScript

/-- A text without a newline. -/
def OneLine (text : String) : Prop :=
  '\n' ∉ text.toList

instance (text : String) : Decidable (OneLine text) :=
  inferInstanceAs (Decidable (_ ∉ _))

/-- A text made of two texts is on one line exactly if both are. -/
theorem oneLine_append {first second : String} :
    OneLine (first ++ second) ↔ OneLine first ∧ OneLine second := by
  unfold OneLine
  rw [String.toList_append, List.mem_append, not_or]

/-- A text with something in front of it and something behind it. -/
theorem OneLine.framed {before text behind : String} (oneLine : OneLine text)
    (front : OneLine before) (back : OneLine behind) : OneLine (before ++ text ++ behind) :=
  oneLine_append.mpr ⟨oneLine_append.mpr ⟨front, oneLine⟩, back⟩

theorem oneLine_ofList {text : List Char} : OneLine (String.ofList text) ↔ '\n' ∉ text := by
  unfold OneLine
  rw [String.toList_ofList]

/-! ### Labels -/

/-- The word for a type is on one line, and so are the words for all other things that messages
name. -/
theorem VarType.oneLine_label (type : VarType) : OneLine type.label := by
  cases type <;> decide

theorem ValueKind.oneLine_label (kind : ValueKind) : OneLine kind.label := by
  cases kind <;> decide

theorem TokenKind.oneLine_label (kind : TokenKind) : OneLine kind.label := by
  cases kind with
  | typeName type => exact type.oneLine_label
  | _ => decide

/-! ### Numbers -/

namespace Number

theorem isDigit_of_mem_natDigits {value : Nat} {char : Char} (member : char ∈ natDigits value) :
    char.isDigit :=
  Nat.isDigit_of_mem_toDigits (by decide) (by decide) member

/-- Numbers are written with digits alone, so on one line. -/
theorem newline_not_mem_natDigits (value : Nat) : '\n' ∉ natDigits value := by
  intro member
  exact absurd (isDigit_of_mem_natDigits member) (by decide)

/-- A natural number is written on one line. -/
theorem oneLine_natText (value : Nat) : OneLine (natText value) :=
  oneLine_ofList.mpr (newline_not_mem_natDigits value)

/-- An integer is written on one line, its sign included. -/
theorem oneLine_intText (value : Int) : OneLine (intText value) := by
  unfold intText
  split
  · exact oneLine_append.mpr ⟨by decide, oneLine_natText _⟩
  · exact oneLine_natText _

theorem oneLine_exponentText (power : Int) : OneLine (exponentText power) := by
  have digits := newline_not_mem_natDigits power.natAbs
  unfold exponentText
  refine oneLine_append.mpr ⟨by split <;> decide, oneLine_ofList.mpr ?_⟩
  split
  · simpa using digits
  · exact digits

theorem newline_not_mem_dropTrailingZeros {digits : List Char} (oneLine : '\n' ∉ digits) :
    '\n' ∉ dropTrailingZeros digits := by
  intro member
  have kept := (List.dropWhile_suffix _).subset (List.mem_reverse.mp member)
  exact oneLine (List.mem_reverse.mp kept)

theorem oneLine_scientificText {digits : List Char} (oneLine : '\n' ∉ digits) (leading : Int) :
    OneLine (scientificText digits leading) := by
  unfold scientificText
  refine oneLine_append.mpr ⟨oneLine_ofList.mpr ?_, oneLine_exponentText leading⟩
  split
  · simpa using oneLine
  · exact oneLine

/-- A double written out in full is on one line if the mark of whole numbers is. -/
theorem oneLine_writtenOutText {style : FloatStyle} (whole : OneLine style.wholeMark)
    {digits : List Char} (oneLine : '\n' ∉ digits) (leading : Int) :
    OneLine (writtenOutText style digits leading) := by
  have zeros (count : Nat) : '\n' ∉ List.replicate count '0' := by simp
  unfold writtenOutText
  split
  · refine oneLine_append.mpr ⟨by decide, oneLine_ofList.mpr ?_⟩
    exact List.not_mem_append (zeros _) oneLine
  · dsimp only
    split
    · refine oneLine_append.mpr ⟨oneLine_ofList.mpr ?_, whole⟩
      exact List.not_mem_append oneLine (zeros _)
    · refine oneLine_ofList.mpr (List.not_mem_append ?_ ?_)
      · exact fun member => oneLine (List.mem_of_mem_take member)
      · refine List.not_mem_cons_of_ne_of_not_mem (by decide) ?_
        exact fun member => oneLine (List.mem_of_mem_drop member)

/-- A decimal is on one line in whatever form its size asks for. -/
theorem Decimal.oneLine_text {style : FloatStyle} (whole : OneLine style.wholeMark)
    (decimal : Decimal) : OneLine (decimal.text style) := by
  have digits := newline_not_mem_dropTrailingZeros (newline_not_mem_natDigits decimal.digits)
  unfold Decimal.text
  dsimp only
  split
  · exact oneLine_writtenOutText whole digits _
  · exact oneLine_scientificText digits _

/-- A double is written on one line in every style whose own words are. -/
theorem oneLine_floatText {style : FloatStyle}
    (marks : OneLine style.wholeMark ∧ OneLine style.infinity ∧ OneLine style.notANumber)
    (value : Float) : OneLine (floatText style value) := by
  have sign (negative : Bool) : OneLine (if negative then "-" else "") := by
    cases negative <;> decide
  unfold floatText
  dsimp only
  split
  · exact marks.2.2
  · exact oneLine_append.mpr ⟨sign _, marks.2.1⟩
  · split
    · exact oneLine_append.mpr ⟨oneLine_append.mpr ⟨sign _, by decide⟩, marks.1⟩
    · exact oneLine_append.mpr ⟨sign _, Decimal.oneLine_text marks.1 _⟩

end Number

/-! ### Quoted texts -/

namespace Text.Quoted

theorem newline_not_mem_hexDigits (count value : Nat) : '\n' ∉ hexDigits count value := by
  induction count generalizing value with
  | zero => exact List.not_mem_nil
  | succ count inductionHypothesis =>
    exact List.not_mem_append (inductionHypothesis _) (by simp [hexDigit])

theorem newline_not_mem_codePointEscape (char : Char) : '\n' ∉ codePointEscape char := by
  unfold codePointEscape
  split
  · simpa using newline_not_mem_hexDigits 2 _
  · split
    · simpa using newline_not_mem_hexDigits 4 _
    · simpa using newline_not_mem_hexDigits 8 _

/-- A character is encoded without a newline: the newline itself has an escape sequence. -/
theorem newline_not_mem_encodeChar {mark : Char} (other : mark ≠ '\n') (char : Char) :
    '\n' ∉ encodeChar mark char := by
  unfold encodeChar
  split
  · rename_i marked
    rcases marked with rfl | rfl
    · decide
    · simpa using other.symm
  · repeat' split
    · decide
    · decide
    · decide
    · rename_i different _ _ _
      simpa using Ne.symm different
    · exact newline_not_mem_codePointEscape char

end Text.Quoted

/-- A quoted text is on one line whatever the text is. -/
theorem oneLine_quoted (text : String) : OneLine (quoted text) := by
  have other : Text.Quoted.quoteMark text.toList ≠ '\n' := by
    unfold Text.Quoted.quoteMark
    split <;> decide
  refine oneLine_ofList.mpr ?_
  unfold Text.Quoted.encode
  simp only [List.mem_cons, List.mem_append, List.mem_flatMap, List.not_mem_nil, or_false]
  rintro (marked | ⟨char, _, member⟩ | marked)
  · exact other marked.symm
  · exact Text.Quoted.newline_not_mem_encodeChar other char member
  · exact other marked.symm

/-! ### Printed expressions -/

theorem Expr.oneLine_renderLiteral (value : Value) : OneLine (renderLiteral value) := by
  cases value with
  | null => decide
  | bool truth => cases truth <;> decide
  | int number => exact Number.oneLine_intText number
  | float number => exact Number.oneLine_floatText (by decide) number
  | text content => exact oneLine_quoted content

end LineScript
