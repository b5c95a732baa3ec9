import HttpContract.Contract.Compile
import HttpContract.Contract.Respond
import HttpContract.Json.Record
import HttpContract.WireTest.Template

/-!
# WireTest.Record — what wire tests report

Records of requests, of contracts with their requests, of versions with their contracts and of apps
with their versions. Whoever makes a record says whether what it is about was a success.
-/

namespace HttpContract.WireTest

/-! ## What goes wrong -/

/-- What is wrong with the answer to a request. -/
inductive Mismatch where
  | unmet (part : ResponsePart) (expected : Constraint) (actual : Json)
  | unchecked (part : ResponsePart) (cause : Constraint.Error)
  | unexplained (expected : Constraint)
  | transport (cause : TransportError)

/-- The text of a mismatch. -/
def Mismatch.message : Mismatch → String
  | unmet part expected actual =>
    "Expected " ++ part.label ++ " to match " ++ expected.text ++ ", got " ++ actual.text
  | unchecked part cause => "Cannot check " ++ part.label ++ ": " ++ cause.message
  | unexplained expected => "Expected body to match " ++ expected.text
  | transport cause => cause.message

/-- Why requests of a contract are not sent. -/
inductive Obstacle where
  | derivation (cause : CompileError)
  | template (method : String) (cause : Constraint.Error)

/-- The text of an obstacle. -/
def Obstacle.message : Obstacle → String
  | derivation cause => "Cannot derive test contract: " ++ cause.message
  | template method cause => "Cannot build " ++ method ++ " request: " ++ cause.message

/-! ## Records -/

/-- The record of a request; without an answer there is no response. -/
structure RequestRecord where
  method : String
  success : Bool
  mismatches : List Mismatch
  request : SentRequest
  response : Option WireResponse

/-- The record of a contract. -/
structure ContractRecord where
  appId : String
  version : String
  id : String
  name : String
  success : Bool
  expected : String
  obstacles : List Obstacle
  requests : List RequestRecord

/-- The record of a version. -/
structure VersionRecord where
  label : String
  success : Bool
  contracts : List ContractRecord

/-- The record of an app. -/
structure AppRecord where
  id : String
  name : String
  success : Bool
  versions : List VersionRecord

/-- The texts of what went wrong. -/
def RequestRecord.errors (r : RequestRecord) : List String := r.mismatches.map Mismatch.message

namespace ContractRecord

/-- The texts of what kept requests from being sent. -/
def ownErrors (r : ContractRecord) : List String := r.obstacles.map Obstacle.message

/-- The texts of all that went wrong, in the order of the requests. -/
def errors (r : ContractRecord) : List String :=
  r.ownErrors ++ r.requests.flatMap RequestRecord.errors

end ContractRecord

/-! ## JSON -/

/-- A reference to something by its identifier and its name. -/
def reference (id name : String) : Json := .object [("id", .string id), ("name", .string name)]

/-- A request as JSON. -/
def sentJson (r : SentRequest) : Json :=
  .object ([("method", .string r.method), ("urlPath", .string r.url),
    ("queryParams", .object r.query), ("headers", .object r.headers)]
    ++ (match r.body with
      | none => []
      | some body => [("body", body)]))

/-- An answer as JSON. -/
def responseJson (r : WireResponse) : Json :=
  .object [("status", Json.ofInt r.status), ("headers", .object r.headers.fields),
    ("body", .string r.body)]

/-- The record of a request as JSON. -/
def RequestRecord.toJson (r : RequestRecord) : Json :=
  .object ([("testInfo", .object [("success", .bool r.success), ("errors", Json.ofTexts r.errors),
      ("requestMethod", .string r.method)]),
    ("request", sentJson r.request)]
    ++ (match r.response with
      | none => []
      | some response => [("response", responseJson response)]))

/-- The record of a contract as JSON. -/
def ContractRecord.toJson (r : ContractRecord) : Json :=
  .object [("testInfo", .object [("success", .bool r.success), ("errors", Json.ofTexts r.ownErrors),
      ("appId", .string r.appId), ("version", .string r.version),
      ("contract", reference r.id r.name), ("expectedResponseScript", .string r.expected)]),
    ("requestResults", .array (r.requests.map RequestRecord.toJson))]

/-- The record of a version as JSON. -/
def VersionRecord.toJson (r : VersionRecord) : Json :=
  .object [("versionNo", .string r.label), ("testInfo", .object [("success", .bool r.success)]),
    ("results", .array (r.contracts.map ContractRecord.toJson))]

/-- The record of an app as JSON. -/
def AppRecord.toJson (r : AppRecord) : Json :=
  .object [("app", reference r.id r.name), ("testInfo", .object [("success", .bool r.success)]),
    ("results", .array (r.versions.map VersionRecord.toJson))]

end HttpContract.WireTest
