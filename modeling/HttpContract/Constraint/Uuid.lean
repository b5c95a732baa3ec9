import HttpContract.Json.Printer
import HttpContract.Random

/-!
# Constraint.Uuid — random identifiers

Universally unique identifiers of version 4 in their canonical form: thirty-two small hexadecimal
digits in five groups, with the version and the variant at fixed places.
-/

namespace HttpContract.Constraint.Uuid

/-- A small hexadecimal digit. -/
def isHexDigit (c : Char) : Bool := c.isDigit || ('a' ≤ c && c ≤ 'f')

/-- What stands at each place: a hyphen, the version, the variant or any digit. -/
inductive Place where
  | hyphen
  | version
  | variant
  | digit

/-- Whether a character may stand at a place. -/
def Place.admits : Place → Char → Bool
  | hyphen, c => c = '-'
  | version, c => c = '4'
  | variant, c => ['8', '9', 'a', 'b'].contains c
  | digit, c => isHexDigit c

/-- The places of an identifier. -/
def places : List Place :=
  List.replicate 8 .digit ++ .hyphen :: List.replicate 4 .digit ++ .hyphen :: .version
    :: List.replicate 3 .digit ++ .hyphen :: .variant :: List.replicate 3 .digit
    ++ .hyphen :: List.replicate 12 .digit

/-- Whether characters stand at their places, none being left over. -/
def fitPlaces : List Place → List Char → Bool
  | [], [] => true
  | p :: ps, c :: cs => p.admits c && fitPlaces ps cs
  | _, _ => false

/-- Whether a text is an identifier. -/
def isUuid (s : String) : Bool := fitPlaces places s.toList

/-- The two digits of a byte. -/
def byteDigits (b : Nat) : List Char := [Json.hexDigit (b / 16 % 16), Json.hexDigit (b % 16)]

/-- Sets the version in the seventh byte and the variant in the ninth. -/
def mark : Nat → Nat → Nat
  | 6, b => 64 + b % 16
  | 8, b => 128 + b % 64
  | _, b => b

/-- The identifier that sixteen bytes make, given from the place `i` on. -/
def charsFrom (i : Nat) : List Nat → List Char
  | [] => []
  | b :: rest =>
    let digits := byteDigits (mark i b)
    let hyphen := if [4, 6, 8, 10].contains i then ['-'] else []
    hyphen ++ digits ++ charsFrom (i + 1) rest

/-- Draws an identifier. -/
def draw : Sampler String := do
  let bytes ← Sampler.times 16 (Sampler.below 256)
  return String.ofList (charsFrom 0 bytes)

end HttpContract.Constraint.Uuid
