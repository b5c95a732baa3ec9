import HttpContract.Constraint.Evaluate

/-!
# Constraint — generating values

A value that meets a constraint: what is given is kept, and every condition is replaced by a value
drawn for it, in the order in which the parts are written. A two-sided value takes the side that a
stub takes. Queries have to be evaluated before.
-/

namespace HttpContract.Constraint

open Calendar (Instant)

variable [Library]

mutual

/-- Draws a value that meets a constraint, as seen at an instant. -/
def mock (now : Instant) : Constraint → Generator Json
  | constant v => return v
  | object fields => do
    let fields ← mockFields now fields
    return .object fields
  | array items => do
    let items ← mockItems now items
    return .array items
  | matcher m => m.draw now
  | extraction _ => Attempt.fail (.unsupported "jsonpath" .mock)
  | dual .both stub _ => mockBranch now stub
  | dual .stubOnly stub _ => mockBranch now stub
  | dual .testOnly _ test => mockBranch now test
termination_by structural c => c

/-- Draws the values of fields. -/
def mockFields (now : Instant) : List (String × Constraint) → Generator (List (String × Json))
  | [] => return []
  | (k, c) :: rest => do
    let v ← c.mock now
    let more ← mockFields now rest
    return (k, v) :: more
termination_by structural fields => fields

/-- Draws the values of items. -/
def mockItems (now : Instant) : List Constraint → Generator (List Json)
  | [] => return []
  | c :: rest => do
    let v ← c.mock now
    let more ← mockItems now rest
    return v :: more
termination_by structural items => items

/-- Draws the value of a side; a missing one is null. -/
def mockBranch (now : Instant) : Option Constraint → Generator Json
  | none => return .null
  | some c => c.mock now
termination_by structural c => c

end

/-- The value of a tree in a context. -/
def resolve (now : Instant) (ctx : Context) (c : Constraint) : Generator Json :=
  (c.evaluate ctx).mock now

end HttpContract.Constraint
