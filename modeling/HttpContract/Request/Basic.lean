import HttpContract.Constraint.Evaluate
import HttpContract.Json.Parser
import HttpContract.Request.Form

/-!
# Request — received requests

A request as a contract sees it, apart from how it came: a method, a path, decoded query values,
headers and a body. The document of a request is what the queries in a contract select from.
-/

namespace HttpContract

/-- Named texts in the order in which they came. -/
abbrev Pairs := List (String × String)

/-- The first value of a header, whatever the case of its name. -/
def Pairs.header? (headers : Pairs) (name : String) : Option String :=
  (headers.find? fun h => h.1.toLower = name.toLower).map (·.2)

/-- A received request. -/
structure Request where
  method : String := "GET"
  path : String := "/"
  query : Pairs := []
  headers : Pairs := []
  body : String := ""

namespace Request

/-- The part of a path below a base path, with a slash at its start. A path that does not start with
the base path is kept whole. -/
def pathBelow (basePath path : String) : String :=
  let cs := path.toList
  let base := basePath.toList
  let rest := if base.isPrefixOf cs then cs.drop base.length else cs
  match rest with
  | '/' :: _ => String.ofList rest
  | _ => String.ofList ('/' :: rest)

/-- The first value of a header. -/
def header? (r : Request) (name : String) : Option String := r.headers.header? name

/-- The query values, grouped by name. -/
def queryFields (r : Request) : List (String × Json) := Form.grouped r.query

/-- Adds a value to the values of a header. -/
def joinHeader (name value : String) : List (String × Json) → List (String × Json)
  | [] => [(name, .string value)]
  | (k, v) :: rest =>
    if k = name then (k, .string (v.asString?.getD "" ++ ", " ++ value)) :: rest
    else (k, v) :: joinHeader name value rest

/-- The headers by their names in small letters; the values of a repeated one are joined. -/
def headerFields (r : Request) : List (String × Json) :=
  r.headers.foldl (fun fields h => joinHeader h.1.toLower h.2 fields) []

/-- The media type of forms. -/
def formType : String := "application/x-www-form-urlencoded"

/-- Whether headers say that a body is a form. -/
def sendsForm (headers : Pairs) : Bool :=
  match headers.header? "content-type" with
  | some value => formType.toList.isPrefixOf value.toLower.toList
  | none => false

/-- The body as JSON, if it is that. -/
def jsonBody? (r : Request) : Option Json := Json.parse? r.body

/-- The body as a contract sees it: the fields of a form, a JSON value, a text, or null if it is
empty. -/
def parsedBody (r : Request) : Json :=
  if r.body.isEmpty then .null
  else if sendsForm r.headers then .object (Form.grouped (Form.parse r.body))
  else r.jsonBody?.getD (.string r.body)

/-- What queries select from, for a request below a base path. -/
def document (r : Request) (basePath : String) : Json :=
  .object [("req", .object [
    ("method", .string r.method),
    ("basePath", .string basePath),
    ("path", .string (pathBelow basePath r.path)),
    ("query", .object r.queryFields),
    ("body", r.parsedBody),
    ("rawBody", .string r.body),
    ("jsonBody", r.jsonBody?.getD .null),
    ("headers", .object r.headerFields)])]

/-- What a stub evaluates in. -/
def context (r : Request) (basePath : String) : Context := ⟨r.document basePath, .stub⟩

end Request

end HttpContract
