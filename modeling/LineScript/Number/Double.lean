/-
Module: LineScript.Number.Double
Purpose: Doubles read exactly, as whole multiples of the smallest positive one.
Trusted boundary: the bits of a Float are those of a double of 64 bits.
Main exports: Reading, Reading.of, ofUnits, ofInt?, Place, Place.before, remainder
-/

/-!
Every finite double is a whole multiple of the smallest positive double. Counting in that unit turns
exact questions about doubles into questions about integers: two doubles compare as their counts do,
and the remainder of one by another is the remainder of the counts.
-/

namespace LineScript.Number

/-- What a double stands for. A finite one is its sign and `significand · 2^shift` units. -/
inductive Reading where
  | notANumber
  | infinite (negative : Bool)
  | finite (negative : Bool) (significand shift : Nat)
  deriving DecidableEq, Repr, Inhabited

/-- The exponent of two of the count of units in one. -/
def unitsExponent : Nat := 1074

/-- How many units make one. -/
def unitsInOne : Nat := 1 <<< unitsExponent

/-- Reads a double from its bits: one for the sign, eleven for the exponent, the others for the
fraction. The lowest exponent has no leading one, the highest is for what is not finite. -/
def Reading.ofBits (bits : Nat) : Reading :=
  let fraction := bits % (1 <<< 52)
  let exponent := (bits >>> 52) % 2048
  let negative := (bits >>> 63) % 2 == 1
  if exponent = 2047 then
    if fraction = 0 then .infinite negative else .notANumber
  else if exponent = 0 then .finite negative fraction 0
  else .finite negative ((1 <<< 52) + fraction) (exponent - 1)

/-- Reads a double. -/
def Reading.of (value : Float) : Reading :=
  .ofBits value.toBits.toNat

/-- The magnitude of a finite double in units. -/
def magnitude (significand shift : Nat) : Nat :=
  significand <<< shift

/-- An integer with the given sign and magnitude. -/
def signed (negative : Bool) (size : Nat) : Int :=
  if negative then -(size : Int) else (size : Int)

/-- The double of the given sign whose magnitude is the given count of units. The count must be one
that a double can have: at most 53 significant bits and below the largest magnitude. -/
def ofUnits (negative : Bool) (size : Nat) : Float :=
  let shift := size.log2 - 52
  let sign := if negative then 1 <<< 63 else 0
  Float.ofBits (UInt64.ofNat (sign + (shift <<< 52) + (size >>> shift)))

/-- A double that is neither infinite nor without a value. -/
def isFinite (value : Float) : Bool :=
  match Reading.of value with
  | .finite _ _ _ => true
  | _ => false

/-- The double nearest to an integer, unless none is near. -/
def ofInt? (value : Int) : Option Float :=
  let converted := Float.ofInt value
  if isFinite converted then some converted else none

/-- The place of a number on the line of all numbers, counted in units. -/
inductive Place where
  | minusInfinity
  | finite (units : Int)
  | plusInfinity
  deriving DecidableEq, Repr, Inhabited

/-- The strict order of places. -/
def Place.before : Place → Place → Bool
  | .minusInfinity, .minusInfinity => false
  | .minusInfinity, _ => true
  | .finite _, .minusInfinity => false
  | .finite one, .finite two => one < two
  | .finite _, .plusInfinity => true
  | .plusInfinity, _ => false

/-- The place of a double; a double that is not a number has none. -/
def placeOfFloat? (value : Float) : Option Place :=
  match Reading.of value with
  | .notANumber => none
  | .infinite true => some .minusInfinity
  | .infinite false => some .plusInfinity
  | .finite negative significand shift =>
    some (.finite (signed negative (magnitude significand shift)))

/-- The place of an integer. -/
def placeOfInt (value : Int) : Place :=
  .finite (value * (unitsInOne : Int))

/-- The double that is not a number. -/
def notANumber : Float :=
  Float.ofBits 0x7ff8000000000000

/-- The remainder of one double by another, of the sign of the first and rounded nowhere. An
infinite divisor leaves the dividend as it is. The first must not be infinite and the second not
zero: then, and when either is not a number, neither is the remainder. -/
def remainder (dividend divisor : Float) : Float :=
  match Reading.of dividend, Reading.of divisor with
  | .finite negative significand shift, .finite _ otherSignificand otherShift =>
    if otherSignificand = 0 then notANumber
    else ofUnits negative (magnitude significand shift % magnitude otherSignificand otherShift)
  | .finite _ _ _, .infinite _ => dividend
  | _, _ => notANumber

end LineScript.Number
