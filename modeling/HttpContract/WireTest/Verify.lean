import HttpContract.Constraint.Compare
import HttpContract.WireTest.Record

/-!
# WireTest.Verify — whether an answer is the expected one

The status, the declared headers and the body of an answer are compared with the parts of a
response, evaluated in the document of the request. A body fits if its text or the JSON value in it
does. Each part that does not fit is reported once, in this order.
-/

namespace HttpContract.WireTest

/-- Compares a value with what is expected of a part. -/
def checkPart (part : ResponsePart) (expected : Constraint) (actual : Json) : List Mismatch :=
  match expected.compare actual with
  | .ok true => []
  | .ok false => [.unmet part expected actual]
  | .error cause => [.unchecked part cause]

/-- Whether a value is what is expected; what cannot be compared is not. -/
def fits (expected : Constraint) (actual : Json) : Bool :=
  match expected.compare actual with
  | .ok fit => fit
  | .error _ => false

variable [Library]

/-- Checks the status. -/
def checkStatus (ctx : Context) (status : Constraint) (r : WireResponse) : List Mismatch :=
  checkPart .status (status.evaluate ctx) (Json.ofInt r.status)

/-- Checks the declared headers; one that is missing counts as null. -/
def checkHeaders (ctx : Context) (headers : List (String × Constraint)) (r : WireResponse) :
    List Mismatch :=
  headers.flatMap fun h =>
    checkPart (.header h.1) (h.2.evaluate ctx) (((r.headers.header? h.1).map .string).getD .null)

/-- Checks the body of an answer, its text and its JSON value being one as good as the other. -/
def checkBody (expected : Constraint) (text : String) : List Mismatch :=
  let raw : Json := .string text
  let parsed := Json.parse? text
  if fits expected raw || (parsed.map (fits expected)).getD false then []
  else
    match checkPart .body expected (parsed.getD raw) with
    | [] => [.unexplained expected]
    | mismatches => mismatches

/-- Checks the body, if one is declared. -/
def checkDeclaredBody (ctx : Context) (body : Option Constraint) (r : WireResponse) :
    List Mismatch :=
  match body with
  | none => []
  | some c => checkBody (c.evaluate ctx) r.body

/-- All that is wrong with an answer. -/
def verify (rule : ResponseRule) (ctx : Context) (r : WireResponse) : List Mismatch :=
  checkStatus ctx rule.status r ++ checkHeaders ctx rule.headers r
    ++ checkDeclaredBody ctx rule.body r

end HttpContract.WireTest
