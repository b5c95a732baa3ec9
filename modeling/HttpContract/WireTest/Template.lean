import HttpContract.Constraint.Mock
import HttpContract.Contract.Basic
import HttpContract.WireTest.Message

/-!
# WireTest.Template — the request that a contract describes

The parts of a request, with values drawn for what the contract leaves open. A template becomes a
request to send, a record of it and the document that the expected response is evaluated against.
-/

namespace HttpContract

open Calendar (Instant)
open Constraint (Generator)

/-- The parts of a request before they are written as texts. -/
structure Template where
  url : String
  query : List (String × Json)
  headers : Pairs
  body : Option Json

/-- A request as records show it. -/
structure SentRequest where
  method : String
  url : String
  query : List (String × Json)
  headers : List (String × Json)
  body : Option Json

namespace Template

variable [Library]

/-- What the parts of a request are evaluated in. -/
def context : Context := ⟨.object [], .test⟩

/-- Draws the query values. A name that comes again keeps its place and gets the new value. -/
def drawQuery (now : Instant) (known : List (String × Json)) :
    List QueryRule → Generator (List (String × Json))
  | [] => return known
  | rule :: rest => do
    let name ← rule.name.resolve now context
    let value ← rule.value.resolve now context
    drawQuery now (Json.setField name.plainText value known) rest

/-- Draws the headers; those that are null are left out. -/
def drawHeaders (now : Instant) : List (String × Constraint) → Generator Pairs
  | [] => return []
  | (name, c) :: rest => do
    let v ← c.resolve now context
    let more ← drawHeaders now rest
    return if v.isNull then more else (name, v.plainText) :: more

/-- Draws the body, if one is declared. -/
def drawBody (now : Instant) : Option Constraint → Generator (Option Json)
  | none => return none
  | some c => do
    let v ← c.resolve now context
    return some v

/-- Draws a request below an address. -/
def draw (now : Instant) (baseUrl : String) (rule : RequestRule) : Generator Template := do
  let path ← rule.path.resolve now context
  let query ← drawQuery now [] rule.query
  let headers ← drawHeaders now rule.headers
  let body ← drawBody now rule.body
  return ⟨baseUrl ++ path.plainText, query, headers, body⟩

/-- The headers and the text of the body as they are sent. -/
def payload (t : Template) : Pairs × Option String :=
  match t.body with
  | some body => WireRequest.encodeBody t.headers body
  | none => (t.headers, none)

/-- The request to send. -/
def request (t : Template) (method : String) : WireRequest :=
  let (headers, body) := t.payload
  ⟨method, t.url, WireRequest.queryPairs t.query, headers, body⟩

/-- The request as records show it. -/
def sent (t : Template) (method : String) : SentRequest :=
  ⟨method, t.url, t.query, t.payload.1.fields, t.body⟩

/-- What queries in the expected response select from. -/
def document (t : Template) (method : String) : Json :=
  let (headers, body) := t.payload
  .object [("req", .object [
    ("method", .string method),
    ("path", .string t.url),
    ("query", .object t.query),
    ("body", t.body.getD .null),
    ("rawBody", .string (body.getD "")),
    ("jsonBody", (body.bind Json.parse?).getD .null),
    ("headers", .object headers.fields)])]

end Template

end HttpContract
