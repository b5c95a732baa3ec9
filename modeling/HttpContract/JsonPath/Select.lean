import HttpContract.JsonPath.Basic
import HttpContract.Json.Equality
import HttpContract.Pattern.Lower
import HttpContract.Pattern.Match

/-!
# JsonPath — the nodes of a query

`Query.select` gives the values of a query's nodes: those of a segment in the order of the nodes it
starts from and, for each of these, in the order of its selectors. A descendant segment visits a
node before its children.
-/

namespace HttpContract.JsonPath

/-! ## Nodes -/

/-- The values of the children of a value. -/
def children : Json → List Json
  | .array items => items
  | .object fields => fields.map (·.2)
  | _ => []

mutual

/-- A value and all values in it, each before its children. -/
def withDescendants : Json → List Json
  | .array items => .array items :: descendantsOfItems items
  | .object fields => .object fields :: descendantsOfFields fields
  | v => [v]
termination_by structural v => v

/-- The items and all values in them. -/
def descendantsOfItems : List Json → List Json
  | [] => []
  | v :: rest => withDescendants v ++ descendantsOfItems rest
termination_by structural vs => vs

/-- The values of the fields and all values in them. -/
def descendantsOfFields : List (String × Json) → List Json
  | [] => []
  | (_, v) :: rest => withDescendants v ++ descendantsOfFields rest
termination_by structural fs => fs

end

/-! ## Places in arrays -/

/-- The place that an index means in an array, counting from the end if it is negative. -/
def placeOf (i : Int) (length : Nat) : Int := if i < 0 then i + length else i

/-- The item at an index. -/
def itemAt? (i : Int) (items : List Json) : Option Json :=
  let place := placeOf i items.length
  if place < 0 then none else items[place.toNat]?

/-- Brings a number between two others. -/
def clamp (lo hi i : Int) : Int := max lo (min hi i)

/-- The items of a slice. Without a step nothing is chosen. -/
def Slice.items (s : Slice) (items : List Json) : List Json :=
  let step := s.step.getD 1
  let n : Int := items.length
  if step = 0 then []
  else if 0 < step then
    let lower := clamp 0 n (placeOf (s.start.getD 0) items.length)
    let upper := clamp 0 n (placeOf (s.stop.getD n) items.length)
    let count := ((upper - lower + step - 1) / step).toNat
    (List.range count).filterMap fun k : Nat => items[(lower + (k : Int) * step).toNat]?
  else
    let upper := clamp (-1) (n - 1) (placeOf (s.start.getD (n - 1)) items.length)
    let lower := match s.stop with
      | none => -1
      | some stop => clamp (-1) (n - 1) (placeOf stop items.length)
    let count := ((upper - lower - step - 1) / -step).toNat
    (List.range count).filterMap fun k : Nat => items[(upper + (k : Int) * step).toNat]?

/-! ## Comparing -/

mutual

/-- Whether two values are equal, numbers being compared as doubles. -/
def equalValues : Json → Json → Bool
  | .null, .null => true
  | .bool a, .bool b => a == b
  | .number m, .number n => m.toBinary64.same n.toBinary64
  | .string s, .string t => s == t
  | .array vs, .array ws => equalItems vs ws
  | .object fs, .object gs => fs.length == gs.length && equalFields fs gs
  | _, _ => false
termination_by structural v => v

/-- Whether two lists of values are equal item by item. -/
def equalItems : List Json → List Json → Bool
  | [], [] => true
  | v :: vs, w :: ws => equalValues v w && equalItems vs ws
  | _, _ => false
termination_by structural vs => vs

/-- Whether every field is equal to the field of the same name in another list. -/
def equalFields : List (String × Json) → List (String × Json) → Bool
  | [], _ => true
  | (k, v) :: fs, gs =>
    (match gs.lookup k with
      | some w => equalValues v w
      | none => false) && equalFields fs gs
termination_by structural fs => fs

end

/-- Whether two values are of one type. -/
def sameType : Json → Json → Bool
  | .null, .null => true
  | .bool _, .bool _ => true
  | .number _, .number _ => true
  | .string _, .string _ => true
  | .array _, .array _ => true
  | .object _, .object _ => true
  | _, _ => false

/-- Whether a value is less than another; only numbers and texts are ordered. -/
def lessValue : Json → Json → Bool
  | .number m, .number n => m.toBinary64.less n.toBinary64
  | .string s, .string t => s < t
  | _, _ => false

/-- Whether two operands are equal; two that have no value are. -/
def equalOperands : Option Json → Option Json → Bool
  | none, none => true
  | some v, some w => equalValues v w
  | _, _ => false

/-- Whether a comparison of two operands holds. All but equality ask for values of one type, and
values without an order count as neither less nor equal. -/
def Comparison.holds (op : Comparison) (left right : Option Json) : Bool :=
  match op, left, right with
  | .equal, l, r => equalOperands l r
  | .unequal, l, r => !equalOperands l r
  | .less, some v, some w => lessValue v w
  | .lessOrEqual, some v, some w => sameType v w && (lessValue v w || equalValues v w)
  | .greater, some v, some w => sameType v w && !lessValue v w && !equalValues v w
  | .greaterOrEqual, some v, some w => sameType v w && !lessValue v w
  | _, _, _ => false

/-! ## Functions -/

/-- The number of characters, items or fields of a value. -/
def lengthOf? : Json → Option Json
  | .string s => some (Json.ofInt s.length)
  | .array items => some (Json.ofInt items.length)
  | .object fields => some (Json.ofInt fields.length)
  | _ => none

/-- Whether a text matches a pattern, as a whole or somewhere in it. What is no text does not match,
and neither does anything match what is no pattern. -/
def matchesPattern [Library] (whole : Bool) (text pattern : Option Json) : Bool :=
  match text, pattern with
  | some (.string s), some (.string p) =>
    match Pattern.compile? (if whole then "(?R)^(" ++ p ++ ")$" else "(?R)(" ++ p ++ ")") with
    | some q => q.isMatch s.toList
    | none => false
  | _, _ => false

/-! ## Queries -/

variable [Library]

mutual

/-- The values of the nodes of a query. -/
def Query.select (root current : Json) : Query → List Json
  | .ofRoot segments => throughSegments root segments [root]
  | .ofCurrent segments => throughSegments root segments [current]
termination_by structural q => q

/-- The values that some segments lead to from given nodes. -/
def throughSegments (root : Json) : List Segment → List Json → List Json
  | [], nodes => nodes
  | segment :: rest, nodes => throughSegments root rest (segment.select root nodes)
termination_by structural segments => segments

/-- The values that a segment leads to from given nodes. -/
def Segment.select (root : Json) : Segment → List Json → List Json
  | .child selectors, nodes => nodes.flatMap fun v => selectAll root selectors v
  | .descendant selectors, nodes =>
    (nodes.flatMap withDescendants).flatMap fun v => selectAll root selectors v
termination_by structural segment => segment

/-- The values that some selectors choose from a node. -/
def selectAll (root : Json) : List Selector → Json → List Json
  | [], _ => []
  | selector :: rest, v => selector.select root v ++ selectAll root rest v
termination_by structural selectors => selectors

/-- The values that a selector chooses from a node. -/
def Selector.select (root : Json) : Selector → Json → List Json
  | .name key, v => (v.get? key).toList
  | .wildcard, v => children v
  | .index i, .array items => (itemAt? i items).toList
  | .index _, _ => []
  | .slice bounds, .array items => bounds.items items
  | .slice _, _ => []
  | .filter condition, v => (children v).filter fun w => condition.holds root w
termination_by structural selector => selector

/-- Whether a condition holds of a node. -/
def Condition.holds (root current : Json) : Condition → Bool
  | .or left right => left.holds root current || right.holds root current
  | .and left right => left.holds root current && right.holds root current
  | .not condition => !condition.holds root current
  | .exists query => !(query.select root current).isEmpty
  | .compare op left right => op.holds (left.value? root current) (right.value? root current)
  | .matches whole text pattern =>
    matchesPattern whole (text.value? root current) (pattern.value? root current)
termination_by structural condition => condition

/-- The value of an operand, if it has one. -/
def Operand.value? (root current : Json) : Operand → Option Json
  | .literal v => some v
  | .node query =>
    match query.select root current with
    | [v] => some v
    | _ => none
  | .length operand => (operand.value? root current).bind lengthOf?
  | .count query => some (Json.ofInt (query.select root current).length)
  | .value query =>
    match query.select root current with
    | [v] => some v
    | _ => none
termination_by structural operand => operand

end

end HttpContract.JsonPath
