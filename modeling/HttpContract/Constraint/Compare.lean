import HttpContract.Constraint.Basic

/-!
# Constraint — comparing

Whether a value meets a constraint. Objects and arrays are open: only what is declared is looked at,
and what is declared but absent counts as null. A two-sided value is compared by the side that a
stub takes. Queries have to be evaluated before.
-/

namespace HttpContract.Constraint

mutual

/-- Whether a value meets a constraint. Parts are looked at in their order, up to the first one that
is not met. -/
def compare : Constraint → Json → Except Error Bool
  | constant v, w => .ok (v.agrees w)
  | object fields, .object actual => compareFields fields actual
  | object _, _ => .ok false
  | array items, .array actual => compareItems items actual
  | array _, _ => .ok false
  | matcher m, w => .ok (m.accepts w)
  | extraction _, _ => .error (.unsupported "jsonpath" .compare)
  | dual .both stub _, w => compareBranch stub w
  | dual .stubOnly stub _, w => compareBranch stub w
  | dual .testOnly _ test, w => compareBranch test w
termination_by structural c => c

/-- Whether the fields of an object meet the declared ones. -/
def compareFields : List (String × Constraint) → List (String × Json) → Except Error Bool
  | [], _ => .ok true
  | (k, c) :: rest, actual =>
    match c.compare ((actual.lookup k).getD .null) with
    | .error e => .error e
    | .ok false => .ok false
    | .ok true => compareFields rest actual
termination_by structural fields => fields

/-- Whether the items of an array meet the declared ones. -/
def compareItems : List Constraint → List Json → Except Error Bool
  | [], _ => .ok true
  | c :: rest, actual =>
    match c.compare (actual.head?.getD .null) with
    | .error e => .error e
    | .ok false => .ok false
    | .ok true => compareItems rest actual.tail
termination_by structural items => items

/-- Whether a value meets a side; a missing one is null. -/
def compareBranch : Option Constraint → Json → Except Error Bool
  | none, w => .ok w.isNull
  | some c, w => c.compare w
termination_by structural c => c

end

end HttpContract.Constraint
