import HttpContract.Admin.Handle
import HttpContract.Service.Loopback
import HttpContract.Settings.Basic

/-!
# Console — requests one a line

A console takes requests as lines of JSON, to the administration or to a running stub, and answers
each with a line of JSON. The stubs that it starts are reached through it; a place is taken if
another stub has it.
-/

namespace HttpContract.Console

open Calendar (Instant)

/-- The state of a console: the service and how many requests it has answered. -/
structure State where
  service : Service := {}
  answered : Nat := 0

/-- The places that are taken. -/
def takenPlaces (s : Service) : List Nat := s.stubs.entries.map (·.2.place)

/-- The first free place from one on, among as many as may be taken. -/
def freePlace (taken : List Nat) : Nat → Nat → Nat
  | 0, place => place
  | n + 1, place => if taken.contains place then freePlace taken n (place + 1) else place

/-- How listening turns out: a place that another stub has cannot be taken. -/
def binder (s : Service) : Binder := fun _ place =>
  let taken := takenPlaces s
  if place = 0 then .ok (freePlace taken taken.length 9000)
  else if taken.contains place then .error .inUse
  else .ok place

/-- A header in a line. -/
def header? : Json.Raw → Option (String × List UInt8)
  | .array [name, value] => do return (← name.asString?, Text.Utf8.bytes (← value.asString?))
  | _ => none

/-- The path and the query in an address without a host. -/
def splitQuery (address : String) : String × Option String :=
  let (path, rest) := address.toList.span (· ≠ '?')
  (String.ofList path, if rest.isEmpty then none else some (String.ofList (rest.drop 1)))

/-- The request in a line and the app to whose stub it goes, if it goes to one. -/
def request? (v : Json.Raw) : Option (HttpRequest × Option String) := do
  let field ← v.record? ["method", "path", "headers", "body", "stub"]
  let method ← Json.Raw.optionalText? (field "method")
  let (path, query) := splitQuery ((← Json.Raw.optionalText? (field "path")).getD "/")
  let headers ← Json.Raw.listOrEmpty? header? (field "headers")
  let body ← Json.Raw.textOrEmpty? (field "body")
  let stub ← Json.Raw.optionalText? (field "stub")
  return (⟨method.getD "GET", path, query, headers, Text.Utf8.bytes body⟩, stub)

/-- A response as a line; null if there is none. -/
def line (response : Option HttpResponse) : String :=
  match response with
  | none => Json.null.text
  | some r =>
    (Json.object [("status", Json.ofInt r.status),
      ("headers", .array (r.headers.map fun h => .array [.string h.1, .string h.2])),
      ("body", .string r.body)]).text

variable [Library]

/-- What handling depends on. -/
def surroundings (settings : Settings) (now : Instant) (s : Service) : Admin.Surroundings :=
  { now, limits := settings.scriptLimits, defaultHost := settings.stubs.host, binder := binder s }

/-- Answers the questions of a wire test from the stubs of a service. -/
def reply (settings : Settings) (now : Instant) (s : Service) (draws : Draws) (r : WireRequest) :
    Reply × Draws :=
  (s.send settings.stubs.bodyLimit now r).run draws

/-- The answer of the stub of an app, unless it is broken off. -/
def stubAnswer (settings : Settings) (now : Instant) (draws : Draws) (s : Service)
    (appId : String) (r : HttpRequest) : Option HttpResponse :=
  if (s.stubs.find? appId).isSome then
    ((Stub.answer settings.stubs.bodyLimit s.store now appId r).run.run draws).1.toOption
  else some (Admin.errorAnswer StubError.notRunning.status StubError.notRunning.message)

/-- Answers a request. If the answer is broken off, the service stays as it is. -/
def answer (settings : Settings) (now : Instant) (draws : Draws) (s : Service) (r : HttpRequest)
    (stub : Option String) : Option HttpResponse × Service :=
  match stub with
  | some appId => (stubAnswer settings now draws s appId r, s)
  | none =>
    let session := Admin.handle (surroundings settings now s) s (draws.branch 0) r
    match (session.hold (reply settings now s) (draws.branch 1)).result with
    | some (response, s) => (some response, s)
    | none => (none, s)

/-- Answers a line. Each line has random numbers of its own. -/
def answerLine (settings : Settings) (now : Instant) (draws : Draws) (state : State)
    (text : String) : String × State :=
  match (Json.Raw.parse? (Text.Utf8.bytes text)).bind request? with
  | none => (line (some (Admin.errorAnswer 400 "a request in JSON is expected")), state)
  | some (r, stub) =>
    let (response, service) :=
      answer settings now (draws.branch state.answered) state.service r stub
    (line response, ⟨service, state.answered + 1⟩)

end HttpContract.Console
