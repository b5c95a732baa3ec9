import HttpContract.Service.Job
import HttpContract.Stub.Answer
import HttpContract.WireTest.Message

/-!
# Service.Loopback — sending requests to the stubs of a service

A request to the address of a running stub reaches that stub without a network. Its parts arrive as
they were sent. A request to any other address fails.
-/

namespace HttpContract

open Calendar (Instant)

/-- The address of a running stub. -/
def RunningStub.address (stub : RunningStub) : String :=
  "http://" ++ stub.host ++ ":" ++ toString stub.place

namespace WireRequest

/-- The path that a request has at an address, if it goes there. -/
def pathAt? (address : String) (r : WireRequest) : Option String :=
  let start := address.toList
  let cs := r.url.toList
  if start.isPrefixOf cs then
    match cs.drop start.length with
    | [] => some "/"
    | '/' :: rest => some (String.ofList ('/' :: rest))
    | _ => none
  else none

/-- A request as it arrives at a path. -/
def arrived (r : WireRequest) (path : String) : HttpRequest where
  method := r.method
  path := path
  query := if r.query.isEmpty then none else some (Form.encode r.query)
  headers := r.headers.map fun h => (h.1.toLower, Text.Utf8.bytes h.2)
  body := Text.Utf8.bytes (r.body.getD "")

end WireRequest

namespace Service

/-- The stub that a request goes to, with the path that it has there. -/
def target? (s : Service) (r : WireRequest) : Option (String × String) :=
  s.stubs.entries.findSome? fun row => (r.pathAt? row.2.address).map fun path => (row.1, path)

/-- What is told of a connection that is closed without an answer. -/
def closed : String := "connection closed before message completed"

/-- What comes of sending a request to the stubs of a service. -/
def send [Library] (bodyLimit : Nat) (now : Instant) (s : Service) (r : WireRequest) :
    Sampler Reply :=
  match s.target? r with
  | none => return .error (.failed "nothing listens there")
  | some (appId, path) => do
    match ← (Stub.answer bodyLimit s.store now appId (r.arrived path)).run with
    | .ok response => return .ok ⟨response.status, response.headers, response.body⟩
    | .error _ => return .error (.failed closed)

end Service

end HttpContract
