import HttpContract.Admin.Reply
import HttpContract.Admin.Route
import HttpContract.Admin.View
import HttpContract.Constraint.Uuid
import HttpContract.Service.Job
import HttpContract.WireTest.Run

/-!
# Admin.Handle — requests to the administration

The administration creates, shows, replaces and deletes apps, versions and contracts, starts and
stops stubs, and runs wire tests. A request is handled by itself: it gets the service as it is and
leaves it as it is to be. Wire tests ask the server under test, so handling is a dialogue; nothing
else asks.
-/

namespace HttpContract.Admin

open Calendar (Instant)

variable [Library]

/-- What handling depends on besides the request: the time, the limits of scripts, the schedules of
wire tests, the host at which stubs listen, how listening turns out, the version that is told, and
the measurements that are shown. -/
structure Surroundings where
  now : Instant
  limits : Script.Limits := {}
  schedules : List (List Nat) := []
  defaultHost : String := "0.0.0.0"
  binder : Binder
  version : String := "0.1.0"
  metrics : String := ""

/-- An answer and the service after it. -/
abbrev Handled := HttpResponse × Service

/-! ## Apps -/

/-- Where an app is found. -/
def appPath (id : String) : String := "/api/v1/apps/" ++ id

/-- Where a version is found. -/
def versionPath (id label : String) : String := appPath id ++ "/versions/" ++ label

/-- Where a contract is found. -/
def contractPath (id : String) : String := "/api/v1/contracts/" ++ id

/-- Carries a job out. -/
def runJob (env : Surroundings) (s : Service) (job : Job) : Outcome × Service :=
  job.run env.defaultHost env.binder s

/-- Carries a store operation out and answers. -/
def onStore {α : Type} (s : Service) (a : Store.Action α) (ok : α → HttpResponse) : Handled :=
  let (r, s) := Job.onStore s a
  (storeAnswer ok r, s)

/-- The answer to what comes of a job about an app. -/
def appOutcome (ok : App → HttpResponse) : Outcome → HttpResponse
  | .app r => storeAnswer ok r
  | .deleted r => storeAnswer (fun _ => noContent) r
  | _ => notFound

/-- Creates an app. -/
def createApp (env : Surroundings) (s : Service) (fresh : String) (r : HttpRequest) : Handled :=
  match readJson "app" ({} : App) App.ofJson? r with
  | .error response => (response, s)
  | .ok app =>
    let (outcome, s) := runJob env s (.createApp fresh app)
    (appOutcome (fun app => created (appPath app.id) app.toJson) outcome, s)

/-- Replaces an app; the identifier in the path is the one that counts. -/
def updateApp (env : Surroundings) (s : Service) (id : String) (r : HttpRequest) : Handled :=
  match readJson "app" ({} : App) App.ofJson? r with
  | .error response => (response, s)
  | .ok app =>
    let app := { app with id := id, name := if app.name.isEmpty then id else app.name }
    let (outcome, s) := runJob env s (.updateApp app)
    (appOutcome (fun _ => noContent) outcome, s)

/-- Deletes an app and stops its stub. -/
def deleteApp (env : Surroundings) (s : Service) (id : String) : Handled :=
  let (outcome, s) := runJob env s (.deleteApp id)
  (appOutcome (fun _ => noContent) outcome, s)

/-! ## Versions -/

/-- Creates a version. -/
def createVersion (s : Service) (id : String) (r : HttpRequest) : Handled :=
  match readJson "version" ({} : Version) Version.ofJson? r with
  | .error response => (response, s)
  | .ok version =>
    onStore s (Store.createVersion id version) fun version =>
      created (versionPath id version.label) version.toJson

/-- Replaces a version; the label in the path is the one that counts. -/
def updateVersion (s : Service) (id label : String) (r : HttpRequest) : Handled :=
  match readJson "version" ({} : Version) Version.ofJson? r with
  | .error response => (response, s)
  | .ok version => onStore s (Store.updateVersion id { version with label }) fun _ => noContent

/-! ## Contracts -/

/-- The script in a body in JSON. -/
def uploadedScript? (v : Json.Raw) : Option String := do
  let field ← v.record? ["script"]
  (← field "script").asString?

/-- The script in a request: the body, or a field of it if it is JSON. -/
def readScript (r : HttpRequest) : Except HttpResponse String :=
  if saysJson r "content-type" then
    match (Json.Raw.parse? r.body).bind uploadedScript? with
    | some script => .ok script
    | none => .error (errorAnswer 400 "Invalid contract JSON: not what is expected")
  else
    match String.fromUTF8? ⟨r.body.toArray⟩ with
    | some script => .ok script
    | none => .error (errorAnswer 400 "Contract script must be UTF-8")

/-- The contract in a request. -/
def readContract (env : Surroundings) (fresh : String) (r : HttpRequest) :
    Except HttpResponse Contract := do
  let script ← readScript r
  match Contract.compileWith env.limits Script.Bindings.standard fresh script with
  | .ok c => .ok c
  | .error e => .error (errorAnswer 400 ("Invalid contract script: " ++ e.message))

/-- What is told about a contract, with or without a script. -/
def summary (c : Contract) (script : Option String) : Json :=
  .object ([("id", .string c.id), ("name", .string c.name)]
    ++ Json.optionalTextField "script" script)

/-- Creates a contract. -/
def createContract (env : Surroundings) (s : Service) (fresh : String) (r : HttpRequest) :
    Handled :=
  match readContract env fresh r with
  | .error response => (response, s)
  | .ok c =>
    onStore s (Store.createContract c) fun c => created (contractPath c.id) (summary c none)

/-- The contract under another identifier. A name that was only the identifier changes with it. -/
def renamed (id : String) (c : Contract) : Contract :=
  { c with id := id, name := if c.name = c.id then id else c.name }

/-- Replaces a contract; the identifier in the path is the one that counts. -/
def updateContract (env : Surroundings) (s : Service) (fresh id : String) (r : HttpRequest) :
    Handled :=
  match readContract env fresh r with
  | .error response => (response, s)
  | .ok c => onStore s (Store.updateContract (renamed id c)) fun _ => noContent

/-- Shows a contract, as JSON to those who accept it and as a script to others. -/
def showContract (env : Surroundings) (s : Service) (id : String) (r : HttpRequest) :
    HttpResponse :=
  match s.store.contract id with
  | .error e => storeErrorAnswer e
  | .ok c =>
    match View.ofQuery? r.query with
    | none => errorAnswer 400 "view must be one of raw, canonical, stub, test"
    | some view =>
      match view.script env.limits c with
      | .error message => errorAnswer 500 message
      | .ok script =>
        if saysJson r "accept" then jsonAnswer 200 (summary c (some script))
        else answer 200 [("content-type", "application/vnd.js.contract")] script

/-! ## Stubs -/

/-- The address under which a client reached the administration. -/
def baseAddress (r : HttpRequest) : String :=
  match Http.header? r "host" with
  | some host => "http://" ++ host
  | none => "http://localhost:8000"

/-- The text without a word at its start, however often it stands there. -/
def dropWord (word : List Char) : Nat → List Char → List Char
  | 0, cs => cs
  | n + 1, cs => if word.isPrefixOf cs then dropWord word n (cs.drop word.length) else cs

/-- The host in an address. -/
def hostOf (address : String) : String :=
  let cs := address.toList
  String.ofList ((dropWord "http://".toList cs.length cs).takeWhile (· ≠ ':'))

/-- Where clients reach a stub. One that listens at every host is reached where the administration
is. -/
def stubAddress (address : String) (stub : RunningStub) : String :=
  let host :=
    if stub.host = "0.0.0.0" || stub.host = "::" then hostOf address else stub.host
  "http://" ++ host ++ ":" ++ toString stub.place

/-- The answer to what comes of a job about a stub. -/
def stubOutcome (address : String) : Outcome → HttpResponse
  | .start (.ok (.started stub)) => created (stubAddress address stub) stub.toJson
  | .start (.ok (.running _)) => noContent
  | .start (.error e) => errorAnswer e.status e.message
  | .stop (.ok _) => noContent
  | .stop (.error e) => errorAnswer e.status e.message
  | _ => notFound

/-- Shows the stub of an app. -/
def showStub (s : Service) (id : String) : HttpResponse :=
  match s.stubs.find? id with
  | some stub => jsonAnswer 200 stub.toJson
  | none => errorAnswer StubError.notRunning.status StubError.notRunning.message

/-- Starts the stub of an app. -/
def startStub (env : Surroundings) (s : Service) (id : String) (r : HttpRequest) : Handled :=
  match readJson "wirestub" ({} : StubRequest) StubRequest.ofJson? r with
  | .error response => (response, s)
  | .ok request =>
    let (outcome, s) := runJob env s (.startStub id request)
    (stubOutcome (baseAddress r) outcome, s)

/-- Stops the stub of an app. -/
def stopStub (env : Surroundings) (s : Service) (id : String) : Handled :=
  let (outcome, s) := runJob env s (.stopStub id false)
  (stubOutcome "" outcome, s)

/-! ## Wire tests -/

/-- The server that a request wants to have tested. -/
def serverOf? (v : Json.Raw) : Option (Option String) := do
  let field ← v.record? ["server"]
  Json.Raw.optionalText? (field "server")

/-- Runs a wire test and answers with its record. -/
def wireTest {α : Type} (toJson : α → Json) (r : HttpRequest)
    (test : Option String → Except WireTestError (WireTest.Session α)) :
    WireTest.Session HttpResponse :=
  match readJson "wiretest" none serverOf? r with
  | .error response => .done response
  | .ok server =>
    match test server with
    | .error e => .done (errorAnswer e.status e.message)
    | .ok session => session.bind fun record => .done (jsonAnswer 200 (toJson record))

/-! ## Requests -/

/-- What is told about the state of the service. -/
def health (env : Surroundings) (s : Service) : Json :=
  .object [("status", .string "ok"), ("version", .string env.version),
    ("apps", Json.ofInt s.store.apps.keys.length),
    ("contracts", Json.ofInt s.store.contracts.keys.length),
    ("wirestubs", Json.ofInt s.stubs.keys.length)]

/-- Handles a request about an app. -/
def handleApp (env : Surroundings) (s : Service) (draws : Draws) (id : String) (part : AppPart)
    (r : HttpRequest) : WireTest.Session Handled :=
  let setup : WireTest.Setup := ⟨env.now, env.limits, env.schedules⟩
  let shown (response : HttpResponse) : WireTest.Session Handled := .done (response, s)
  let tested (session : WireTest.Session HttpResponse) : WireTest.Session Handled :=
    session.bind fun response => .done (response, s)
  match part, r.method with
  | .whole, "GET" => shown (storeAnswer (fun app => jsonAnswer 200 app.toJson) (s.store.app id))
  | .whole, "PUT" => .done (updateApp env s id r)
  | .whole, "DELETE" => .done (deleteApp env s id)
  | .versions, "GET" =>
    shown (storeAnswer (fun app => jsonAnswer 200 (Json.ofTexts app.labels)) (s.store.app id))
  | .versions, "POST" => .done (createVersion s id r)
  | .version label, "GET" =>
    shown (storeAnswer (fun version => jsonAnswer 200 version.toJson) (s.store.version id label))
  | .version label, "PUT" => .done (updateVersion s id label r)
  | .version label, "DELETE" =>
    .done (onStore s (Store.deleteVersion id label) fun _ => noContent)
  | .stub, "GET" => shown (showStub s id)
  | .stub, "POST" => .done (startStub env s id r)
  | .stub, "DELETE" => .done (stopStub env s id)
  | .wireTest, "POST" =>
    tested (wireTest WireTest.AppRecord.toJson r fun server =>
      WireTest.runApp setup s.store id server draws)
  | .versionWireTest label, "POST" =>
    tested (wireTest WireTest.VersionRecord.toJson r fun server =>
      WireTest.runVersion setup s.store id label server draws)
  | .contractWireTest label contractId, "POST" =>
    tested (wireTest WireTest.ContractRecord.toJson r fun server =>
      WireTest.runContract setup s.store id label contractId server draws)
  | _, _ => shown notFound

/-- Handles a request about what a route says. -/
def handleRoute (env : Surroundings) (s : Service) (draws : Draws) (route : Route)
    (r : HttpRequest) : WireTest.Session Handled :=
  let (fresh, draws) := Constraint.Uuid.draw.run draws
  match route, r.method with
  | .root, "GET" => .done (answer 200 [("content-type", "text/plain; charset=utf-8")] "OK", s)
  | .health, "GET" => .done (jsonAnswer 200 (health env s), s)
  | .metrics, "GET" =>
    .done (answer 200 [("content-type", "text/plain; version=0.0.4")] env.metrics, s)
  | .apps, "GET" => .done (jsonAnswer 200 (Json.ofTexts s.store.apps.keys), s)
  | .apps, "POST" => .done (createApp env s fresh r)
  | .contracts, "GET" => .done (jsonAnswer 200 (Json.ofTexts s.store.contracts.keys), s)
  | .contracts, "POST" => .done (createContract env s fresh r)
  | .contract id, "GET" => .done (showContract env s id r, s)
  | .contract id, "PUT" => .done (updateContract env s fresh id r)
  | .contract id, "DELETE" => .done (onStore s (Store.deleteContract id) fun _ => noContent)
  | .app id part, _ => handleApp env s draws id part r
  | _, _ => .done (notFound, s)

/-- Handles a request. -/
def handle (env : Surroundings) (s : Service) (draws : Draws) (r : HttpRequest) :
    WireTest.Session Handled :=
  match Route.ofPath r.path with
  | .ok route => handleRoute env s draws route r
  | .error e => .done (errorAnswer e.status e.message, s)

end HttpContract.Admin
