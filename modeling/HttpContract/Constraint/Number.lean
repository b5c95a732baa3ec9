import HttpContract.Constraint.Error
import HttpContract.Library

/-!
# Constraint.Number — numbers within bounds

Which numbers bounds accept and how one is drawn. Where only one side is limited, a range of a
hundred is taken on the other, ending at zero if zero is nearer.
-/

namespace HttpContract.Constraint

namespace Bounds

/-- The number of a value, as a double. -/
def numberOf? : Json → Option Binary64
  | .number n => some n.toBinary64
  | _ => none

/-- Whether a value is a number of the kind within the bounds. -/
def accepts (kind : NumberKind) (b : Bounds) (v : Json) : Bool :=
  match numberOf? v with
  | none => false
  | some x => (kind != .integer || x.isWhole) && b.contains x

/-! ## Ranges -/

/-- The one of two limits that is given, or the tighter of both. -/
def tightest (pick : Binary64 → Binary64 → Binary64) (x y : Option Binary64) : Option Binary64 :=
  match x, y with
  | some x, some y => some (pick x y)
  | some x, none => some x
  | none, y => y

/-- The number one hundred. -/
def hundred : Binary64 := Binary64.ofInt 100

/-- The range of two limits, a missing one being filled in. -/
def fillIn (lo hi : Option Binary64) : Binary64 × Binary64 :=
  match lo, hi with
  | some lo, some hi => (lo, hi)
  | none, some hi =>
    (if Binary64.zero.less hi then Binary64.zero else hi.add hundred.negate, hi)
  | some lo, none => (lo, if lo.less Binary64.zero then Binary64.zero else lo.add hundred)
  | none, none => (Binary64.zero, hundred)

/-- The ends of the range of whole numbers. -/
def integerEnds (b : Bounds) : Binary64 × Binary64 :=
  let lo := tightest Binary64.larger (b.above?.map fun x => x.floor.addInt 1)
    (b.atLeast?.map Binary64.ceil)
  let hi := tightest Binary64.smaller (b.below?.map fun x => x.ceil.addInt (-1))
    (b.atMost?.map Binary64.floor)
  let ends := fillIn lo hi
  (ends.1.ceil, ends.2.floor)

/-- The range of whole numbers to draw from: one that fits signed words of 64 bits. -/
def integerRange (b : Bounds) : Except Error (Int × Int) :=
  let (lo, hi) := b.integerEnds
  if hi.less lo || lo.less (Binary64.ofInt (-9223372036854775808)) ||
      (Binary64.ofInt 9223372036854775808).less hi then
    .error (.emptyRange .integer lo hi b)
  else .ok (lo.toWord, hi.toWord)

/-- The ends of the range of doubles. -/
def floatEnds (b : Bounds) : Binary64 × Binary64 :=
  fillIn (tightest Binary64.larger b.above? b.atLeast?)
    (tightest Binary64.smaller b.below? b.atMost?)

/-! ## Drawing -/

/-- Draws a whole number within the bounds. -/
def drawInteger (b : Bounds) : Generator Json := do
  match b.integerRange with
  | .error e => Attempt.fail e
  | .ok (lo, hi) =>
    let n ← Attempt.between lo hi
    return Json.ofInt n

/-- How finely the way from zero to one is divided. -/
def divisions : Nat := 9007199254740992

/-- Draws a double that is at least zero and below one. -/
def drawPart : Sampler Binary64 := do
  let n ← Sampler.below divisions
  return Binary64.ofUnits false (n * Binary64.one) divisions

/-- Whether the distance of two numbers is too great for a double. -/
def isWide (lo hi : Binary64) : Bool :=
  (Binary64.ofUnits? false (hi.units - lo.units).toNat 1).isNone

section Drawing

variable [Library]

/-- Draws a double from a range that is not empty. One from a range that is too wide is made of a
part of each of its ends. -/
def drawBetween (lo hi : Binary64) : Sampler Binary64 := do
  if isWide lo hi then
    let t ← drawPart
    return (lo.mul ((Binary64.ofInt 1).add t.negate)).add (hi.mul t)
  else
    let x ← Library.double lo hi
    return x.val

/-- The point in the middle of a range. -/
def middle (lo hi : Binary64) : Binary64 := lo.half.add hi.half

/-- Draws a double from a range, if one within the bounds is met. -/
def drawWithin? (b : Bounds) (lo hi : Binary64) : Sampler (Option Binary64) :=
  if lo.same hi then pure ((some lo).filter b.contains)
  else do
    match ← Sampler.until? b.contains (drawBetween lo hi) Error.attempts with
    | some x => return some x
    | none => return (some (middle lo hi)).filter b.contains

/-- Draws a double within the bounds. -/
def drawFloat (b : Bounds) : Generator Json := do
  let (lo, hi) := b.floatEnds
  if hi.less lo then Attempt.fail (.emptyRange .float lo hi b)
  else
    match ← Attempt.sample (b.drawWithin? lo hi) with
    | some x => return .number (.float x)
    | none => Attempt.fail (.emptyRange .float lo hi b)

/-- Draws a number of a kind within the bounds. -/
def draw (kind : NumberKind) (b : Bounds) : Generator Json :=
  match kind with
  | .integer => b.drawInteger
  | .float => b.drawFloat

end Drawing

end Bounds

end HttpContract.Constraint
