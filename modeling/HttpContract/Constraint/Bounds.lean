import HttpContract.Json.Basic
import HttpContract.Json.Printer

/-!
# Constraint.Bounds — limits of numbers

A number may be limited from both sides, each limit being part of the range or not. Limits are kept
as they were written and compared as doubles.
-/

namespace HttpContract.Constraint

/-- The kinds of numbers. -/
inductive NumberKind where
  | integer
  | float
deriving DecidableEq

/-- The name of a kind of number. -/
def NumberKind.name : NumberKind → String
  | integer => "integer"
  | float => "float"

/-- The limits of a number: above, at least, below, at most. -/
structure Bounds where
  above : Option Json.Number := none
  atLeast : Option Json.Number := none
  below : Option Json.Number := none
  atMost : Option Json.Number := none
deriving DecidableEq

namespace Bounds

/-- The limits as doubles. -/
def above? (b : Bounds) : Option Binary64 := b.above.map Json.Number.toBinary64

@[inherit_doc above?]
def atLeast? (b : Bounds) : Option Binary64 := b.atLeast.map Json.Number.toBinary64

@[inherit_doc above?]
def below? (b : Bounds) : Option Binary64 := b.below.map Json.Number.toBinary64

@[inherit_doc above?]
def atMost? (b : Bounds) : Option Binary64 := b.atMost.map Json.Number.toBinary64

/-- Whether a limit that may be missing holds. -/
def meets (limit : Option Binary64) (holds : Binary64 → Bool) : Bool :=
  match limit with
  | none => true
  | some x => holds x

/-- Whether a number is within the limits. -/
def contains (b : Bounds) (x : Binary64) : Bool :=
  meets b.above? (fun l => l.less x) && meets b.atLeast? (fun l => l.atMost x)
    && meets b.below? (fun l => x.less l) && meets b.atMost? (fun l => x.atMost l)

/-- A field of the limits as they are written. -/
def field (name : String) (limit : Option Json.Number) : List (String × Json) :=
  match limit with
  | none => []
  | some n => [(name, .number n)]

/-- The limits as an object. -/
def toJson (b : Bounds) : Json :=
  .object (field "gt" b.above ++ field "gte" b.atLeast ++ field "lt" b.below
    ++ field "lte" b.atMost)

end Bounds

end HttpContract.Constraint
