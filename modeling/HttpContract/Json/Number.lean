import HttpContract.Binary64.Decimal

/-!
# Json.Number — the numbers of JSON values

A number is a whole number that fits a signed or an unsigned 64-bit word, or a finite double.
Reading keeps a text without point and exponent whole if it fits a word. All other texts become
doubles: their digits are taken as far as they fit a word, and the word is scaled by a power of ten
that is itself a double, so that a text of many digits may miss the nearest double by one place.
-/

namespace HttpContract.Json

/-- A whole number that fits a signed or an unsigned 64-bit word. -/
structure WordInt where
  val : Int
  lower : -9223372036854775808 ≤ val := by decide
  upper : val < 18446744073709551616 := by decide
deriving DecidableEq

/-- The word with a value, if the value fits. -/
def WordInt.ofInt? (n : Int) : Option WordInt :=
  if h : -9223372036854775808 ≤ n ∧ n < 18446744073709551616 then some ⟨n, h.1, h.2⟩ else none

/-- The nearest word to a value. -/
def WordInt.ofInt (n : Int) : WordInt :=
  ⟨max (-9223372036854775808) (min 18446744073709551615 n), by omega, by omega⟩

/-- Whether the word is one of the signed ones. -/
def WordInt.isSigned (n : WordInt) : Bool := n.val < 9223372036854775808

/-- A JSON number. -/
inductive Number where
  | integer (n : WordInt)
  | float (x : Binary64)
deriving DecidableEq

namespace Number

/-- The double nearest to the number. -/
def toBinary64 : Number → Binary64
  | integer n => Binary64.ofInt n.val
  | float x => x

/-- The text of the number. -/
def text : Number → String
  | integer n => toString n.val
  | float x => x.jsonText

/-- Equality of values. Two whole numbers are compared as they are, and a whole number and a double
as doubles. -/
def same : Number → Number → Bool
  | integer m, integer n => m.val == n.val
  | x, y => x.toBinary64.same y.toBinary64

/-! ## Reading -/

/-- The double for `significand * 10 ^ exponent`, scaled by powers of ten that are doubles, unless
that overflows. The first argument bounds the number of steps downwards. -/
def scaled? : Nat → Binary64 → Int → Option Binary64
  | 0, x, _ => some { Binary64.zero with negative := x.negative }
  | steps + 1, x, exponent =>
    if x.magnitude = 0 then some x
    else if exponent.natAbs ≤ 308 then
      let power := Binary64.ofInt (Nat.pow 10 exponent.natAbs)
      if 0 ≤ exponent then x.scaleUp? power else some (x.scaleDown power)
    else if 0 ≤ exponent then none
    else scaled? steps (x.scaleDown (Binary64.ofInt (Nat.pow 10 308))) (exponent + 308)

/-- Takes decimal digits into a word as long as they fit it. The result is the word and the number
of digits taken. -/
def takeDigits (word : Nat) : List Char → Nat × Nat
  | [] => (word, 0)
  | d :: rest =>
    let next := word * 10 + (d.toNat - 48)
    if next < 18446744073709551616 then
      let (word, taken) := takeDigits next rest
      (word, taken + 1)
    else (word, 0)

/-- The written form of a number: its sign, the digits before the point, those behind it, and the
exponent, as far as they are present. -/
structure Written where
  negative : Bool
  whole : List Char
  fraction : Option (List Char)
  exponent : Option (Bool × List Char)

/-- The number that a written form denotes, unless it overflows. -/
def Written.value? (w : Written) : Option Number :=
  let (word, taken) := takeDigits 0 w.whole
  let skipped := w.whole.length - taken
  let double (significand : Nat) (exponent : Int) : Option Number :=
    (scaled? 4 (Binary64.ofInt significand) exponent).map fun x =>
      float { x with negative := w.negative }
  if w.fraction.isNone && w.exponent.isNone && skipped = 0 then
    if !w.negative then (WordInt.ofInt? word).map integer
    else if word = 0 || 9223372036854775808 < word then double word 0
    else (WordInt.ofInt? (-(word : Int))).map integer
  else
    let (significand, behind) := takeDigits word (w.fraction.getD [])
    let base : Int := skipped - behind
    match w.exponent with
    | none => double significand base
    | some (down, digits) =>
      let size : Nat := digits.foldl (fun n d => n * 10 + (d.toNat - 48)) 0
      if 2147483648 ≤ size then
        if significand ≠ 0 && !down then none
        else some (float { Binary64.zero with negative := w.negative })
      else double significand (if down then base - (size : Int) else base + (size : Int))

end Number

end HttpContract.Json
