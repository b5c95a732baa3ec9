import HttpContract.Constraint.Matcher
import HttpContract.JsonPath.Parser
import HttpContract.JsonPath.Select

/-!
# Constraint — trees of conditions

A constraint describes a JSON value: some of its parts are given, others meet conditions, are taken
from a document or differ between the two sides of a contract. This module has the type and what is
said about a tree as it stands; the modules beside it write, evaluate, compare and generate.
-/

namespace HttpContract

open Constraint (Matcher Capabilities)

/-- A query as it is written and as it is read. -/
structure Extraction where
  expression : String
  query : JsonPath.Query

/-- The query that a text means. -/
def Extraction.parse? (expression : String) : Option Extraction :=
  (JsonPath.Query.parse? expression).map fun q => ⟨expression, q⟩

/-- The values that a query selects in a document. -/
def Extraction.select [Library] (e : Extraction) (document : Json) : List Json :=
  e.query.select document document

/-- Which side of a two-sided value is taken: that of the reader, or always the same. -/
inductive Sidedness where
  | both
  | stubOnly
  | testOnly
deriving DecidableEq

/-- The name of the call that makes a two-sided value. -/
def Sidedness.name : Sidedness → String
  | both => "value"
  | stubOnly => "stubValue"
  | testOnly => "testValue"

/-- A description of a JSON value. A side of a two-sided value may be missing. -/
inductive Constraint where
  | constant (v : Json)
  | object (fields : List (String × Constraint))
  | array (items : List Constraint)
  | matcher (m : Matcher)
  | extraction (e : Extraction)
  | dual (sidedness : Sidedness) (stub test : Option Constraint)

namespace Constraint

instance : Inhabited Constraint := ⟨.constant .null⟩

/-- The name of the kind of a constraint. -/
def kind : Constraint → String
  | constant _ => "constant"
  | object _ => "object"
  | array _ => "array"
  | matcher m => m.kind
  | extraction _ => "jsonpath"
  | dual sidedness _ _ => sidedness.name

/-- What a constraint can be used for. -/
def capabilities : Constraint → Capabilities
  | constant _ => ⟨true, true, true⟩
  | object _ => ⟨true, true, true⟩
  | array _ => ⟨true, true, true⟩
  | matcher m => m.capabilities
  | extraction _ => ⟨true, false, false⟩
  | dual _ _ _ => ⟨true, true, true⟩

/-- The field of an object with a name. -/
def field? (key : String) : Constraint → Option Constraint
  | object fields => fields.lookup key
  | _ => none

/-! ## Literals -/

mutual

/-- The value of a tree that describes only one. -/
def literal? : Constraint → Option Json
  | constant v => some v
  | object fields => (literalFields? fields).map Json.object
  | array items => (literalItems? items).map Json.array
  | _ => none
termination_by structural c => c

/-- The values of the fields, if all are literals. -/
def literalFields? : List (String × Constraint) → Option (List (String × Json))
  | [] => some []
  | (k, c) :: rest =>
    match c.literal?, literalFields? rest with
    | some v, some fields => some ((k, v) :: fields)
    | _, _ => none
termination_by structural fields => fields

/-- The values of the items, if all are literals. -/
def literalItems? : List Constraint → Option (List Json)
  | [] => some []
  | c :: rest =>
    match c.literal?, literalItems? rest with
    | some v, some items => some (v :: items)
    | _, _ => none
termination_by structural items => items

end

/-! ## Searching -/

mutual

/-- Whether a constraint in a tree passes a test. -/
def any (test : Constraint → Bool) : Constraint → Bool
  | constant v => test (constant v)
  | object fields => test (object fields) || anyField test fields
  | array items => test (array items) || anyItem test items
  | matcher m => test (matcher m)
  | extraction e => test (extraction e)
  | dual sidedness stub test' =>
    test (dual sidedness stub test') || anyBranch test stub || anyBranch test test'
termination_by structural c => c

/-- Whether a constraint in the fields passes a test. -/
def anyField (test : Constraint → Bool) : List (String × Constraint) → Bool
  | [] => false
  | (_, c) :: rest => c.any test || anyField test rest
termination_by structural fields => fields

/-- Whether a constraint in the items passes a test. -/
def anyItem (test : Constraint → Bool) : List Constraint → Bool
  | [] => false
  | c :: rest => c.any test || anyItem test rest
termination_by structural items => items

/-- Whether a constraint in a side passes a test. -/
def anyBranch (test : Constraint → Bool) : Option Constraint → Bool
  | none => false
  | some c => c.any test
termination_by structural c => c

end

/-! ## Equality -/

mutual

/-- Whether two trees are the same. Queries and patterns are the same if they are written alike. -/
def same : Constraint → Constraint → Bool
  | constant v, constant w => v == w
  | object fs, object gs => sameFields fs gs
  | array cs, array ds => sameItems cs ds
  | matcher m, matcher n => m == n
  | extraction d, extraction e => d.expression == e.expression
  | dual s a b, dual t c d => s == t && sameBranch a c && sameBranch b d
  | _, _ => false
termination_by structural c => c

/-- Whether two lists of fields are the same. -/
def sameFields : List (String × Constraint) → List (String × Constraint) → Bool
  | [], [] => true
  | (k, c) :: fs, (l, d) :: gs => k == l && c.same d && sameFields fs gs
  | _, _ => false
termination_by structural fs => fs

/-- Whether two lists of items are the same. -/
def sameItems : List Constraint → List Constraint → Bool
  | [], [] => true
  | c :: cs, d :: ds => c.same d && sameItems cs ds
  | _, _ => false
termination_by structural cs => cs

/-- Whether two sides are the same. -/
def sameBranch : Option Constraint → Option Constraint → Bool
  | none, none => true
  | some c, some d => c.same d
  | _, _ => false
termination_by structural c => c

end

end Constraint

end HttpContract
