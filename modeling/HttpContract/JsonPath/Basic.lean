import HttpContract.Json.Basic

/-!
# JsonPath — queries into JSON values

The queries of RFC 9535 as data. Conditions are kept in the form in which they are well typed: a
function that gives a value stands where values are compared, one that gives a truth value stands
where conditions stand, and only queries for at most one node are compared.
-/

namespace HttpContract.JsonPath

/-- How two values are compared. -/
inductive Comparison where
  | equal
  | unequal
  | less
  | lessOrEqual
  | greater
  | greaterOrEqual
deriving DecidableEq

/-- The bounds and the step of a slice, as far as they are given. -/
structure Slice where
  start : Option Int
  stop : Option Int
  step : Option Int
deriving DecidableEq

mutual

/-- A query: the segments that lead from the root or from the current node. -/
inductive Query where
  | ofRoot (segments : List Segment)
  | ofCurrent (segments : List Segment)

/-- A step of a query, to children or to all descendants. -/
inductive Segment where
  | child (selectors : List Selector)
  | descendant (selectors : List Selector)

/-- What is chosen from a node. -/
inductive Selector where
  | name (key : String)
  | wildcard
  | index (i : Int)
  | slice (bounds : Slice)
  | filter (condition : Condition)

/-- A condition on the current node. -/
inductive Condition where
  | or (left right : Condition)
  | and (left right : Condition)
  | not (condition : Condition)
  | exists (query : Query)
  | compare (op : Comparison) (left right : Operand)
  | matches (whole : Bool) (text pattern : Operand)

/-- A value in a condition. A query stands for its only node. -/
inductive Operand where
  | literal (v : Json)
  | node (query : Query)
  | length (operand : Operand)
  | count (query : Query)
  | value (query : Query)

end

/-- The one selector of a segment that chooses at most one child. -/
def Segment.isSingular : Segment → Bool
  | .child [.name _] => true
  | .child [.index _] => true
  | _ => false

/-- The segments of a query. -/
def Query.segments : Query → List Segment
  | .ofRoot segments => segments
  | .ofCurrent segments => segments

/-- Whether a query has at most one node, whatever the value. -/
def Query.isSingular (q : Query) : Bool := q.segments.all Segment.isSingular

end HttpContract.JsonPath
