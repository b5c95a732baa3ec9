import HttpContract.Binary64.Basic

/-!
# Binary64 — decimal text

Reading a decimal rounds it once to the nearest double. Writing takes the fewest digits that read
back as the same double and, among those, the ones nearest to it. `Decimal` holds such digits, and
the two texts of this library (`plainText`, `jsonText`) differ only in how they are laid out.
-/

namespace HttpContract.Binary64

/-- The decimal `digits * 10 ^ exponent`. -/
structure Decimal where
  digits : Nat
  exponent : Int
deriving DecidableEq

/-- The number of decimal digits of a positive number. -/
def digitCount (n : Nat) : Nat := (Nat.toDigits 10 n).length

/-! ## Reading -/

/-- The decimal as a quotient of units. -/
def Decimal.ratio (d : Decimal) : Nat × Nat :=
  if d.exponent < 0 then (d.digits * one, Nat.pow 10 (-d.exponent).toNat)
  else (d.digits * Nat.pow 10 d.exponent.toNat * one, 1)

/-- The double nearest to a decimal, unless that overflows. A decimal far outside the range of
doubles is settled by the place of its first digit. -/
def ofDecimal? (negative : Bool) (d : Decimal) : Option Binary64 :=
  let place := d.exponent + digitCount d.digits
  if d.digits = 0 ∨ place < -330 then some { zero with negative }
  else if place > 310 then none
  else ofUnits? negative d.ratio.1 d.ratio.2

/-! ## Shortest digits -/

/-- The exponent of the first digit of `v` units, `v` being positive. -/
def leadingPlace (v : Nat) : Int :=
  (digitCount (v * Nat.pow 10 330 / one) : Int) - 331

/-- The decimals with last digit at `10 ^ place` on either side of `v` units. -/
def gridBelow (v : Nat) (place : Int) : Nat :=
  if place < 0 then v * Nat.pow 10 (-place).toNat / one else v / (Nat.pow 10 place.toNat * one)

/-- Whether a decimal is read as the double with place `m`. -/
def readsAs (m : Nat) (d : Decimal) : Bool := nearest d.ratio.1 d.ratio.2 == m

/-- Of two neighbours on a grid, the one nearer to `v` units; the even one of two equally near. -/
def nearerOf (v : Nat) (below : Nat) (place : Int) : Nat :=
  let (num, den) := Decimal.ratio ⟨2 * below + 1, place⟩
  if v * 2 * den < num then below
  else if num < v * 2 * den then below + 1
  else if below % 2 = 0 then below
  else below + 1

/-- The grid with `n` digits: a decimal on it that reads back as the double with place `m`, which is
`v` units and whose first digit stands at `leading`. -/
def hit? (m v : Nat) (leading : Int) (n : Nat) : Option Decimal :=
  let place := leading + 1 - n
  let below := gridBelow v place
  if readsAs m ⟨below, place⟩ then
    if readsAs m ⟨below + 1, place⟩ then some ⟨nearerOf v below place, place⟩
    else some ⟨below, place⟩
  else if readsAs m ⟨below + 1, place⟩ then some ⟨below + 1, place⟩
  else none

/-- Moves trailing zeros of the digits into the exponent. -/
def Decimal.trim (d : Decimal) : Nat → Decimal
  | 0 => d
  | fuel + 1 =>
    if d.digits ≠ 0 ∧ d.digits % 10 = 0 then trim ⟨d.digits / 10, d.exponent + 1⟩ fuel else d

/-- The shortest decimal that reads back as `x`, the nearest of those of that length. -/
def shortest (x : Binary64) : Decimal :=
  if x.magnitude = 0 then ⟨0, 0⟩
  else
    let v := unitsOf x.magnitude
    match (List.range' 1 17).findSome? (hit? x.magnitude v (leadingPlace v)) with
    | some d => d.trim 20
    | none => ⟨0, 0⟩

/-! ## Text -/

/-- The text of a sign. -/
def signText (negative : Bool) : String := if negative then "-" else ""

/-- Positional text: whole part, and a point with the fraction if there is one. -/
def Decimal.positional (d : Decimal) : String :=
  let ds := Nat.toDigits 10 d.digits
  if 0 ≤ d.exponent then
    String.ofList (ds ++ List.replicate d.exponent.toNat '0')
  else
    let fraction := (-d.exponent).toNat
    let padded := List.replicate (fraction + 1 - ds.length) '0' ++ ds
    let whole := padded.length - fraction
    String.ofList (padded.take whole ++ '.' :: padded.drop whole)

/-- Exponent text: one digit before the point and a signed exponent. -/
def Decimal.scientific (d : Decimal) : String :=
  let ds := Nat.toDigits 10 d.digits
  let place := d.exponent + ds.length - 1
  let fraction := if ds.length ≤ 1 then [] else '.' :: ds.drop 1
  String.ofList (ds.take 1 ++ fraction) ++ "e" ++ (if place < 0 then "-" else "+")
    ++ toString place.natAbs

/-- The text of a number in messages: always positional, without a point for whole numbers. -/
def plainText (x : Binary64) : String := signText x.negative ++ x.shortest.positional

/-- The text of a number in JSON: a point is always written, and numbers from `1e16` upwards or
below `1e-5` have an exponent. -/
def jsonText (x : Binary64) : String :=
  let d := x.shortest
  let place := d.exponent + digitCount d.digits - 1
  signText x.negative ++
    if d.digits = 0 then "0.0"
    else if place < -5 ∨ 15 < place then d.scientific
    else if 0 ≤ d.exponent then d.positional ++ ".0"
    else d.positional

end HttpContract.Binary64
