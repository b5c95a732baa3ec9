import HttpContract.Constraint.Mock
import HttpContract.Contract.Basic
import HttpContract.Request.Basic

/-!
# Contract — responses

The response of a contract to a request: its parts are evaluated against the document of the request
and values are drawn for what is left open. `Response.encode` gives the headers and the text to
send.
-/

namespace HttpContract

open Calendar (Instant)

/-- A part of a response. -/
inductive ResponsePart where
  | header (name : String)
  | status
  | body
deriving DecidableEq

/-- A part as messages name it. -/
def ResponsePart.label : ResponsePart → String
  | header name => "header `" ++ name ++ "`"
  | status => "status"
  | body => "body"

/-- Why there is no response. -/
inductive ResponseError where
  | part (part : ResponsePart) (cause : Constraint.Error)
  | invalidStatus (v : Json)

/-- The text of an error. -/
def ResponseError.message : ResponseError → String
  | part p cause => "cannot produce response " ++ p.label ++ ": " ++ cause.message
  | invalidStatus v => "status must be an integer between 100 and 999, got " ++ v.text

/-- A response. A body may be absent. -/
structure Response where
  status : Nat
  headers : Pairs
  body : Option Json
deriving DecidableEq

namespace Response

/-- The text of a body and its media type: a text is sent as it is, anything else as JSON, and
nothing for null. -/
def payload (body : Option Json) : String × Option String :=
  match body with
  | none => ("", none)
  | some .null => ("", none)
  | some (.string s) => (s, some "text/plain; charset=utf-8")
  | some v => (v.text, some "application/json")

/-- The headers and the text to send; a content type is added if none is declared. -/
def encode (r : Response) : Pairs × String :=
  match payload r.body with
  | (text, some mediaType) =>
    if (r.headers.header? "content-type").isNone then
      (r.headers ++ [("Content-Type", mediaType)], text)
    else (r.headers, text)
  | (text, none) => (r.headers, text)

/-- The status that a value means: a whole number from 100 to 999. -/
def statusOf? (v : Json) : Option Nat :=
  match v with
  | .number (.integer n) => if 100 ≤ n.val ∧ n.val ≤ 999 then some n.val.toNat else none
  | _ => none

end Response

namespace Contract

/-- A computation that makes a part of a response. -/
abbrev Responder := Attempt ResponseError

variable [Library]

/-- The value of a part of the response. -/
def resolvePart (now : Instant) (ctx : Context) (part : ResponsePart) (c : Constraint) :
    Responder Json :=
  (c.resolve now ctx).mapReason (.part part)

/-- The headers of the response; those that are null are left out. -/
def resolveHeaders (now : Instant) (ctx : Context) : List (String × Constraint) → Responder Pairs
  | [] => return []
  | (name, c) :: rest => do
    let v ← resolvePart now ctx (.header name) c
    let more ← resolveHeaders now ctx rest
    return if v.isNull then more else (name, v.plainText) :: more

/-- The body of the response, if one is declared. -/
def resolveBody (now : Instant) (ctx : Context) (body : Option Constraint) :
    Responder (Option Json) :=
  match body with
  | none => return none
  | some c => do
    let v ← resolvePart now ctx .body c
    return some v

/-- The response of a contract to a request below a base path. -/
def respond (c : Contract) (now : Instant) (basePath : String) (r : Request) :
    Responder Response := do
  let ctx := r.context basePath
  let headers ← resolveHeaders now ctx c.response.headers
  let v ← resolvePart now ctx .status c.response.status
  match Response.statusOf? v with
  | none => Attempt.fail (.invalidStatus v)
  | some status =>
    let body ← resolveBody now ctx c.response.body
    return ⟨status, headers, body⟩

end Contract

end HttpContract
