import HttpContract.Store.Basic
import HttpContract.WireTest.Dialogue
import HttpContract.WireTest.Verify

/-!
# WireTest.Run — testing a server against contracts

A test sends the requests of the test side of a contract, one for each of its methods, and compares
the answers. It is a dialogue with the server. Each contract draws random numbers of its own, so
that its requests depend on no other contract. An app is tested version by version; the contracts of
a version may be tested together.
-/

namespace HttpContract

open Calendar (Instant)

/-- The random numbers of the `i`-th of several computations that run side by side: those at the
places of the `i`-th diagonal count. -/
def Draws.branch (d : Draws) (i : Nat) : Draws :=
  ⟨fun n => d.source (d.position + (i + n) * (i + n + 1) / 2 + n), 0⟩

/-- Why a run gives no record. -/
inductive WireTestError where
  | store (cause : StoreError)
  | noServer (appId : String)

namespace WireTestError

/-- The text of an error. -/
def message : WireTestError → String
  | store cause => cause.message
  | noServer appId => "app " ++ appId ++ " has no server to test against"

/-- The status that tells a client about an error. -/
def status : WireTestError → Nat
  | store cause => cause.status
  | noServer _ => 400

end WireTestError

namespace WireTest

/-- A dialogue with a server. -/
abbrev Session := Dialogue WireRequest Reply

/-- How tests are run: the time, the limits of scripts and, for each version that is tested, the
order in which its contracts go on, one after another if nothing else is said. -/
structure Setup where
  now : Instant
  limits : Script.Limits := {}
  schedules : List (List Nat) := []

/-- How the versions behind some others are tested. -/
def Setup.behind (setup : Setup) (n : Nat) : Setup :=
  { setup with schedules := setup.schedules.drop n }

/-! ## Contracts -/

variable [Library]

/-- The record of a request and what came of it. -/
def recordOf (rule : ResponseRule) (t : Template) (method : String) (reply : Reply) :
    RequestRecord :=
  let record (mismatches : List Mismatch) (response : Option WireResponse) : RequestRecord :=
    ⟨method, mismatches.isEmpty, mismatches, t.sent method, response⟩
  match reply with
  | .ok response => record (verify rule ⟨t.document method, .test⟩ response) (some response)
  | .error cause => record [.transport cause] none

/-- Sends a request and records what comes of it. -/
def exchange (rule : ResponseRule) (t : Template) (method : String) : Session RequestRecord :=
  (Dialogue.question (t.request method)).bind fun reply => .done (recordOf rule t method reply)

/-- What was found so far about a contract. -/
abbrev Findings := List Obstacle × List RequestRecord

/-- Tests a contract with each of some methods, until a request cannot be made. If drawing one is
broken off, so is the test. -/
def testMethods (now : Instant) (baseUrl : String) (c : Contract) :
    List String → Draws → Session Findings
  | [], _ => .done ([], [])
  | method :: rest, draws =>
    match (Template.draw now baseUrl c.request).run draws with
    | (.error .brokenOff, _) => .broken
    | (.error (.reason cause), _) => .done ([.template method cause], [])
    | (.ok t, draws) =>
      (exchange c.response t method).bind fun record =>
        (testMethods now baseUrl c rest draws).bind fun found =>
          .done (found.1, record :: found.2)

/-- The address of a version on a server. -/
def baseUrl (server : String) (app : App) (version : Version) : String :=
  server ++ version.basePath app.basePath

/-- Tests a contract of a version against a server. -/
def testContract (setup : Setup) (server : String) (app : App) (version : Version) (c : Contract)
    (draws : Draws) : Session ContractRecord :=
  let record (success : Bool) (expected : String) (found : Findings) : ContractRecord :=
    ⟨app.id, version.label, c.id, c.name, success, expected, found.1, found.2⟩
  match c.derive setup.limits .test with
  | .error cause => .done (record false "" ([.derivation cause], []))
  | .ok derived =>
    (testMethods setup.now (baseUrl server app version) derived derived.request.methods.toList
      draws).bind fun found =>
      .done (record (found.1.isEmpty && found.2.all RequestRecord.success)
        derived.response.script found)

/-! ## Versions and apps -/

/-- The contracts of a version that are stored. -/
def storedContracts (store : Store) (version : Version) : List Contract :=
  version.contracts.filterMap store.contracts.find?

/-- Tests contracts, each with random numbers of its own. -/
def testContracts (setup : Setup) (server : String) (app : App) (version : Version)
    (draws : Draws) (contracts : List Contract) : Session (List ContractRecord) :=
  Dialogue.together (setup.schedules.headD [])
    (contracts.zipIdx.map fun c => testContract setup server app version c.1 (draws.branch c.2))

/-- Tests a version of an app against a server. -/
def testVersion (setup : Setup) (store : Store) (server : String) (app : App) (draws : Draws)
    (version : Version) : Session VersionRecord :=
  (testContracts setup server app version draws (storedContracts store version)).bind fun records =>
    .done ⟨version.label, records.all ContractRecord.success, records⟩

/-- Tests the versions of an app against a server. -/
def testApp (setup : Setup) (store : Store) (server : String) (app : App) (draws : Draws) :
    Session AppRecord :=
  (Dialogue.inTurn (app.versions.zipIdx.map fun v =>
    testVersion (setup.behind v.2) store server app (draws.branch v.2) v.1)).bind fun records =>
    .done ⟨app.id, app.name, records.all VersionRecord.success, records⟩

/-! ## Runs -/

/-- The text without slashes at its end. -/
def withoutFinalSlashes (s : String) : String :=
  String.ofList (s.toList.reverse.dropWhile (· = '/')).reverse

/-- The server to test: a given one or the first one of the app. -/
def serverOf (app : App) (given : Option String) : Except WireTestError String :=
  match given.or app.servers.head? with
  | some server => .ok (withoutFinalSlashes server)
  | none => .error (.noServer app.id)

/-- What the store knows, or the error of a run. -/
def known {α : Type} (r : Except StoreError α) : Except WireTestError α := r.mapError .store

/-- Tests all versions of an app. -/
def runApp (setup : Setup) (store : Store) (id : String) (server : Option String) (draws : Draws) :
    Except WireTestError (Session AppRecord) := do
  let app ← known (store.app id)
  let server ← serverOf app server
  return testApp setup store server app draws

/-- Tests one version of an app. -/
def runVersion (setup : Setup) (store : Store) (id label : String) (server : Option String)
    (draws : Draws) : Except WireTestError (Session VersionRecord) := do
  let app ← known (store.app id)
  let version ← known (store.version id label)
  let server ← serverOf app server
  return testVersion setup store server app draws version

/-- Tests one contract below a version of an app. -/
def runContract (setup : Setup) (store : Store) (id label contractId : String)
    (server : Option String) (draws : Draws) : Except WireTestError (Session ContractRecord) := do
  let app ← known (store.app id)
  let version ← known (store.version id label)
  let c ← known (store.contract contractId)
  let server ← serverOf app server
  return testContract setup server app version c draws

end WireTest

end HttpContract
