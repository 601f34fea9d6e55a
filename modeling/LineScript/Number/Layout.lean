/-
Module: LineScript.Number.Layout
Purpose: The texts of integers and doubles.
Trusted boundary: none
Main exports: FloatStyle, natText, intText, Decimal.text, floatText
-/
import LineScript.Number.Shortest

/-!
A double is written by the fewest digits that read back. When the power of ten of its leading digit
is at least -4 and below 16 it is written out, otherwise as digits and an exponent with a sign and
at least two digits. Two styles share that layout: the literal style of dumps keeps a point in
every number that is written out, the printed style of program output drops a fraction of zero.
-/

namespace LineScript.Number

/-- What is left open by the layout of doubles. -/
structure FloatStyle where
  /-- Written after a number without a fraction. -/
  wholeMark : String
  infinity : String
  notANumber : String
  deriving DecidableEq, Repr, Inhabited

/-- The style of dumps: every double shows that it is none of the integers. -/
def literalStyle : FloatStyle := ⟨".0", "inf", "nan"⟩

/-- The style of program output. -/
def printedStyle : FloatStyle := ⟨"", "Infinity", "NaN"⟩

/-- The least power of a leading digit that is written out. -/
def leastWrittenOut : Int := -4

/-- The least power of a leading digit that is too large to be written out. -/
def leastTooLarge : Int := 16

/-- The text of a natural number. -/
def natText (value : Nat) : String :=
  String.ofList (natDigits value)

/-- The text of an integer. -/
def intText (value : Int) : String :=
  if value < 0 then "-" ++ natText value.natAbs else natText value.natAbs

/-- Digits without the zeros at their end. -/
def dropTrailingZeros (digits : List Char) : List Char :=
  (digits.reverse.dropWhile (· == '0')).reverse

/-- The text of an exponent: a sign and at least two digits. -/
def exponentText (power : Int) : String :=
  let digits := natDigits power.natAbs
  let padded := if digits.length < 2 then '0' :: digits else digits
  (if power < 0 then "e-" else "e+") ++ String.ofList padded

/-- Digits and an exponent, the point after the first digit. -/
def scientificText (digits : List Char) (leading : Int) : String :=
  let mantissa :=
    match digits with
    | first :: second :: rest => first :: '.' :: second :: rest
    | few => few
  String.ofList mantissa ++ exponentText leading

/-- Digits written out around the point, the leading one standing for the given power of ten. -/
def writtenOutText (style : FloatStyle) (digits : List Char) (leading : Int) : String :=
  if leading < 0 then
    "0." ++ String.ofList (List.replicate (leading.natAbs - 1) '0' ++ digits)
  else
    let whole := leading.toNat + 1
    if digits.length ≤ whole then
      String.ofList (digits ++ List.replicate (whole - digits.length) '0') ++ style.wholeMark
    else
      String.ofList (digits.take whole ++ '.' :: digits.drop whole)

/-- The text of a positive decimal. -/
def Decimal.text (style : FloatStyle) (decimal : Decimal) : String :=
  let digits := natDigits decimal.digits
  let leading := decimal.power + digits.length - 1
  let significant := dropTrailingZeros digits
  if leastWrittenOut ≤ leading ∧ leading < leastTooLarge then
    writtenOutText style significant leading
  else scientificText significant leading

/-- The text of a double. -/
def floatText (style : FloatStyle) (value : Float) : String :=
  let sign (negative : Bool) := if negative then "-" else ""
  match Reading.of value with
  | .notANumber => style.notANumber
  | .infinite negative => sign negative ++ style.infinity
  | .finite negative significand shift =>
    if significand = 0 then sign negative ++ "0" ++ style.wholeMark
    else sign negative ++ (shortestDecimal significand shift).text style

end LineScript.Number
