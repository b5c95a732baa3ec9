/-!
# Binary64 — finite double-precision numbers

A finite double is an integer multiple of `2^-1074`, the least positive one. `Binary64.units` is
that integer, so order, sums and rounding are exact integer arithmetic here: every operation works
on units and rounds once, to the nearest double, a tie going to the even neighbour.

The 63 bits below the sign, read as a number (`magnitude`), count the doubles from zero upwards;
`unitsOf` gives the size of the one with a given count.
-/

namespace HttpContract

/-- How many doubles there are from a power of two up to the next. -/
abbrev binade : Nat := 4503599627370496

/-- A finite double: its sign and the place of its absolute value in the list of all of them. -/
structure Binary64 where
  negative : Bool
  magnitude : Nat
  finite : magnitude < 2047 * binade := by decide
deriving DecidableEq

namespace Binary64

/-! ## Size -/

/-- How many units of `2^-1074` make one. -/
def one : Nat := Nat.pow 2 1074

/-- The absolute value with place `m`, in units: the first places are one unit apart, and from there
on the distance doubles with every binade. -/
def unitsOf (m : Nat) : Nat :=
  if m < binade then m else (binade + m % binade) * Nat.pow 2 (m / binade - 1)

/-- The number itself, in units. -/
def units (x : Binary64) : Int :=
  if x.negative then -(unitsOf x.magnitude : Int) else unitsOf x.magnitude

/-! ## Rounding -/

/-- The quotient rounded to the nearest whole number; a half goes to the even neighbour. -/
def roundHalfEven (num den : Nat) : Nat :=
  let q := num / den
  let r := num % den
  if 2 * r < den then q
  else if den < 2 * r then q + 1
  else if q % 2 = 0 then q
  else q + 1

/-- The place of the double nearest to `num / den` units. It may lie past the last finite one. -/
def nearest (num den : Nat) : Nat :=
  let shift := (num / den).log2 - 52
  shift * binade + roundHalfEven num (den * Nat.pow 2 shift)

/-- The double nearest to `num / den` units, unless that is beyond the finite ones. -/
def ofUnits? (negative : Bool) (num den : Nat) : Option Binary64 :=
  let m := nearest num den
  if h : m < 2047 * binade then some ⟨negative, m, h⟩ else none

/-- The largest finite double, with the given sign. -/
def greatest (negative : Bool) : Binary64 := ⟨negative, 2047 * binade - 1, by decide⟩

/-- The finite double nearest to `num / den` units. -/
def ofUnits (negative : Bool) (num den : Nat) : Binary64 :=
  (ofUnits? negative num den).getD (greatest negative)

/-- The finite double nearest to a signed number of units over `den`. -/
def ofSignedUnits (num : Int) (den : Nat) : Binary64 := ofUnits (num < 0) num.natAbs den

/-- The double nearest to a whole number. -/
def ofInt (n : Int) : Binary64 := ofSignedUnits (n * one) 1

/-- Positive zero. -/
def zero : Binary64 := ⟨false, 0, by decide⟩

/-! ## Order -/

/-- Equality of values: the two zeros are equal. -/
def same (x y : Binary64) : Bool := x.units == y.units

/-- Strict order of values. -/
def less (x y : Binary64) : Bool := x.units < y.units

/-- Order of values. -/
def atMost (x y : Binary64) : Bool := x.units ≤ y.units

/-- The greater of two numbers, the first of two equal ones. -/
def larger (x y : Binary64) : Binary64 := if x.less y then y else x

/-- The smaller of two numbers, the first of two equal ones. -/
def smaller (x y : Binary64) : Binary64 := if y.less x then y else x

/-! ## Arithmetic -/

/-- The opposite number. -/
def negate (x : Binary64) : Binary64 := { x with negative := !x.negative }

/-- The rounded sum; a sum of zero is negative only for two negative zeros. -/
def add (x y : Binary64) : Binary64 :=
  let sum := x.units + y.units
  if sum = 0 then { zero with negative := x.negative && y.negative } else ofSignedUnits sum 1

/-- The rounded sum with a whole number. -/
def addInt (x : Binary64) (n : Int) : Binary64 := x.add (ofInt n)

/-- The rounded half. -/
def half (x : Binary64) : Binary64 := ofUnits x.negative (unitsOf x.magnitude) 2

/-- The rounded product with a double of the given positive size, unless it overflows. -/
def scaleUp? (x : Binary64) (factor : Binary64) : Option Binary64 :=
  ofUnits? x.negative (unitsOf x.magnitude * unitsOf factor.magnitude) one

/-- The rounded quotient by a double of the given positive size. -/
def scaleDown (x : Binary64) (factor : Binary64) : Binary64 :=
  ofUnits x.negative (unitsOf x.magnitude * one) (unitsOf factor.magnitude)

/-- The rounded product. -/
def mul (x y : Binary64) : Binary64 :=
  ofUnits (x.negative != y.negative) (unitsOf x.magnitude * unitsOf y.magnitude) one

/-! ## Whole numbers -/

/-- Whether the number is whole. -/
def isWhole (x : Binary64) : Bool := unitsOf x.magnitude % one == 0

/-- The greatest whole number that is not above `x`, with the sign of `x` if it is zero. -/
def floor (x : Binary64) : Binary64 :=
  if x.isWhole then x else { ofInt (x.units.fdiv one) with negative := x.negative }

/-- The least whole number that is not below `x`, with the sign of `x` if it is zero. -/
def ceil (x : Binary64) : Binary64 :=
  if x.isWhole then x else { ofInt (-((-x.units).fdiv one)) with negative := x.negative }

/-- The whole part, or the nearest end of the range of signed 64-bit words. -/
def toWord (x : Binary64) : Int :=
  max (-9223372036854775808) (min 9223372036854775807 (x.units.tdiv one))

end Binary64

end HttpContract
