/-
Module: LineScript.Number.Shortest
Purpose: The shortest decimal that reads back as a given double.
Trusted boundary: none
Main exports: Decimal, Window, shortestDecimal
-/
import LineScript.Number.Double

/-!
A decimal reads back as a double when it lies nearer to it than to its two neighbours; halfway
points belong to the double with the even significand. For one digit, two digits, and so on, the
double has two neighbours on the grid of decimals with that many digits. The first grid with a
neighbour that reads back gives the shortest decimal; of two such neighbours the nearer is taken,
and of two equally near the one with the even last digit. Seventeen digits always suffice.

All of it is exact: positions are natural numbers counted in quarters of a unit, since halfway
points are whole multiples of those.
-/

namespace LineScript.Number

/-- A decimal: its digits as one number, and the power of ten they are multiplied by. -/
structure Decimal where
  digits : Nat
  power : Int
  deriving DecidableEq, Repr, Inhabited

/-- The digits of a number in base ten. -/
def natDigits (value : Nat) : List Char :=
  Nat.toDigits 10 value

/-- A positive double with the halfway points around it, in quarters of a unit. -/
structure Window where
  low : Nat
  value : Nat
  high : Nat
  /-- Whether the halfway points themselves read back as the double. -/
  closed : Bool
  deriving DecidableEq, Repr, Inhabited

namespace Window

/-- How many quarters of a unit make one. -/
def quartersInOne : Nat := 4 * unitsInOne

/-- The window of a double. Just above a power of two the neighbour below is half as far away,
unless the spacing below is already the smallest one. -/
def ofDouble (significand shift : Nat) : Window where
  low := (4 * significand - (if significand = 1 <<< 52 ∧ 0 < shift then 1 else 2)) <<< shift
  value := (4 * significand) <<< shift
  high := (4 * significand + 2) <<< shift
  closed := significand % 2 == 0

/-- The power of ten of the leading digit of a window's double. -/
def leadingPower (window : Window) : Int :=
  if quartersInOne ≤ window.value then
    (natDigits (window.value / quartersInOne)).length - 1
  else
    -((natDigits ((quartersInOne - 1) / window.value)).length : Int)

/-- The multiple of a power of ten that reads back as the window's double, if one of the two
nearest multiples does. Both sides of each comparison are scaled by `grid` or `scale`, so that they
are whole. -/
def multipleOf? (window : Window) (power : Int) : Option Nat :=
  let grid := quartersInOne * Nat.pow 10 power.toNat
  let scale := Nat.pow 10 (-power).toNat
  let below := window.value * scale / grid
  let above := below + 1
  let belowReads :=
    if window.closed then window.low * scale ≤ below * grid
    else window.low * scale < below * grid
  let aboveReads :=
    if window.closed then above * grid ≤ window.high * scale
    else above * grid < window.high * scale
  let toBelow := window.value * scale - below * grid
  let toAbove := above * grid - window.value * scale
  if belowReads ∧ aboveReads then
    if toBelow < toAbove ∨ (toBelow = toAbove ∧ below % 2 = 0) then some below else some above
  else if belowReads then some below
  else if aboveReads then some above
  else none

/-- The shortest decimal that reads back as the window's double. -/
def shortest (window : Window) : Decimal :=
  let leading := window.leadingPower
  let found := (List.range 17).findSome? fun (count : Nat) =>
    (window.multipleOf? (leading - count)).map fun digits =>
      (⟨digits, leading - count⟩ : Decimal)
  found.getD ⟨window.value / quartersInOne, 0⟩

end Window

/-- The shortest decimal that reads back as the finite positive double of the given significand and
shift. -/
def shortestDecimal (significand shift : Nat) : Decimal :=
  (Window.ofDouble significand shift).shortest

end LineScript.Number
