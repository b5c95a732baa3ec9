import HttpContract.Constraint.Printer

/-!
# Contract — what a client asks and a server answers

A contract describes the requests that it is about and the response to them. The parts are
constraints; a part that is not declared has a default or is missing.
-/

namespace HttpContract

/-- The methods of a contract: one, or any of a list. They are in capital letters. -/
inductive Methods where
  | one (m : String)
  | anyOf (ms : List String)
deriving DecidableEq

namespace Methods

/-- The methods in their order. -/
def toList : Methods → List String
  | one m => [m]
  | anyOf ms => ms

/-- Whether a method is one of them, whatever its case. -/
def contain (ms : Methods) (method : String) : Bool :=
  ms.toList.any fun m => m.toLower = method.toLower

/-- The methods as they are written. -/
def toConstraint : Methods → Constraint
  | one m => .constant (.string m)
  | anyOf ms => .array (ms.map fun m => .constant (.string m))

end Methods

/-- A query value that a request must have. -/
structure QueryRule where
  name : Constraint
  value : Constraint

/-- The requests that a contract is about. -/
structure RequestRule where
  methods : Methods := .one "GET"
  path : Constraint := .constant (.string "/")
  query : List QueryRule := []
  headers : List (String × Constraint) := []
  body : Option Constraint := none

/-- The response of a contract. -/
structure ResponseRule where
  status : Constraint := .constant (Json.ofInt 200)
  headers : List (String × Constraint) := []
  body : Option Constraint := none

/-- A contract with the script that it was made from. -/
structure Contract where
  id : String
  name : String
  request : RequestRule
  response : ResponseRule
  source : String

/-! ## Writing -/

/-- A field, if there is something in it. -/
def optionalField (key : String) (c : Option Constraint) : List (String × Constraint) :=
  match c with
  | none => []
  | some c => [(key, c)]

/-- The declared headers, if there are any. -/
def headersField (headers : List (String × Constraint)) : List (String × Constraint) :=
  if headers.isEmpty then [] else [("headers", .object headers)]

/-- A query value as it is written. -/
def QueryRule.toConstraint (q : QueryRule) : Constraint :=
  .object [("name", q.name), ("value", q.value)]

/-- The requests as they are written. -/
def RequestRule.toConstraint (r : RequestRule) : Constraint :=
  .object ([("method", r.methods.toConstraint), ("urlPath", r.path)]
    ++ (if r.query.isEmpty then []
      else [("queryParameters", .array (r.query.map QueryRule.toConstraint))])
    ++ headersField r.headers ++ optionalField "body" r.body)

/-- The response as it is written. -/
def ResponseRule.toConstraint (r : ResponseRule) : Constraint :=
  .object (("status", r.status) :: headersField r.headers ++ optionalField "body" r.body)

/-- The script of the response. -/
def ResponseRule.script (r : ResponseRule) : String := r.toConstraint.prettyText

namespace Contract

/-- The contract as it is written. -/
def toConstraint (c : Contract) : Constraint :=
  .object [("id", .constant (.string c.id)), ("name", .constant (.string c.name)),
    ("request", c.request.toConstraint), ("response", c.response.toConstraint)]

/-- The characters of the canonical script. -/
def scriptChars (c : Contract) : List Char :=
  "module.exports = ".toList ++ c.toConstraint.chars (some 0) ++ [';', '\n']

/-- The canonical script of a contract. -/
def script (c : Contract) : String := String.ofList c.scriptChars

/-! ## Equality -/

/-- Whether two contracts are the same, the scripts that they were made from aside. -/
def same (c d : Contract) : Bool :=
  c.id == d.id && c.name == d.name && c.request.methods == d.request.methods
    && c.toConstraint.same d.toConstraint

end Contract

end HttpContract
