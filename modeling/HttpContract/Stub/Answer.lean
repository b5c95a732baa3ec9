import HttpContract.Contract.Respond
import HttpContract.Http.Message
import HttpContract.Routing

/-!
# Stub — answers

A stub answers a request with the response of the contract that the request goes to. A body that is
too long is refused before anything is looked at. If the answer is broken off, none is sent.
-/

namespace HttpContract.Stub

open Calendar (Instant)

/-- The answer to a body that is too long. -/
def tooLong : HttpResponse := { status := 413, body := "Request body too large" }

/-- The answer to a request that no contract handles. -/
def unmatched : HttpResponse := { status := 404, body := "Not found" }

/-- The answer if a contract gives no response. -/
def failed (e : ResponseError) : HttpResponse :=
  { status := 500, headers := [("content-type", "text/plain; charset=utf-8")], body := e.message }

/-- A response as it is sent. -/
def sent (r : Response) : HttpResponse :=
  let (headers, text) := r.encode
  { status := r.status, headers := Http.sendable headers, body := text }

variable [Library]

/-- The answer of the stub of an app to a request. -/
def answer (bodyLimit : Nat) (store : Store) (now : Instant) (appId : String) (r : HttpRequest) :
    Drawing HttpResponse := do
  if bodyLimit < r.body.length then return tooLong
  let request := Http.toRequest r
  match ← store.route? now appId request with
  | none => return unmatched
  | some route =>
    match ← (route.contract.respond now route.basePath request).settle with
    | .ok response => return sent response
    | .error e => return failed e

end HttpContract.Stub
