import HttpContract.Library.Simple
import HttpContract.Proofs.Admin.Address
import HttpContract.Proofs.Admin.Unchanged
import HttpContract.Proofs.Contract.Canonical
import HttpContract.Proofs.Store.Invariant

/-!
# Admin — where created records are found

A request that creates an app, a version or a contract is answered with a location that has the
names of the record as they are, while paths are read with their segments decoded. So the path in a
location is about the record exactly if its names can stand in a path as they are
(`ofPath_location`), and a path with encoded names always is (`ofPath_encoded`). A location that may
not be sent in a header costs the answer its status, though the record is stored (`created_eq`).
-/

namespace HttpContract.Admin

open Admin.Route (Addressable joined decoded? pathPart)

/-! ## Records -/

/-- What can be created: an app, a version of the app with an identifier, or a contract. -/
inductive Record where
  | app (app : App)
  | version (id : String) (version : Version)
  | contract (c : Contract)

namespace Record

/-- The names by which a record is found. -/
def names : Record → List String
  | app a => [a.id]
  | version id v => [id, v.label]
  | contract c => [c.id]

/-- Where the answer says that a record is found. -/
def location : Record → String
  | app a => appPath a.id
  | version id v => versionPath id v.label
  | contract c => contractPath c.id

/-- The location with encoded names. -/
def encodedLocation : Record → String
  | app a => appPath (Text.Percent.encode a.id)
  | version id v => versionPath (Text.Percent.encode id) (Text.Percent.encode v.label)
  | contract c => contractPath (Text.Percent.encode c.id)

/-- The start of the path of a record. -/
def base : Record → List Char
  | app _ => Route.appsBase
  | version _ _ => Route.appsBase
  | contract _ => Route.contractsBase

/-- The segments behind the start of the path of a record. -/
def segments : Record → List String
  | app a => [a.id]
  | version id v => [id, "versions", v.label]
  | contract c => [c.id]

/-- The place that the names of a record address. -/
def place : Record → Place
  | app a => .app a.id .whole
  | version id v => .app id (.version v.label)
  | contract c => .contract c.id

/-- What a path of a record is about. -/
def route : Record → Route
  | app a => .app a.id .whole
  | version id v => .app id (.version v.label)
  | contract c => .contract c.id

/-- What the answer tells about a record when it is created. -/
def toJson : Record → Json
  | app a => a.toJson
  | version _ v => v.toJson
  | contract c => summary c none

/-- The answer that shows a record: as JSON, or a contract as its script to those who do not ask for
JSON. -/
def shown (r : HttpRequest) : Record → HttpResponse
  | app a => ⟨200, [("content-type", "application/json")], a.toJson.prettyText⟩
  | version _ v => ⟨200, [("content-type", "application/json")], v.toJson.prettyText⟩
  | contract c =>
    if saysJson r "accept" then
      ⟨200, [("content-type", "application/json")], (summary c (some c.source)).prettyText⟩
    else ⟨200, [("content-type", "application/vnd.js.contract")], c.source⟩

/-- Nothing is stored under the names of a record. -/
def IsNew (store : Store) : Record → Prop
  | app a => store.apps.find? a.id = none
  | version id v => ∃ app, store.apps.find? id = some app ∧ app.version? v.label = none
  | contract c => store.contracts.find? c.id = none

/-- A record is what is stored under its names. -/
def IsStored (store : Store) : Record → Prop
  | app a => store.apps.find? a.id = some a
  | version id v => store.version id v.label = .ok v
  | contract c => store.contracts.find? c.id = some c

end Record

/-! ## Paths -/

variable {record : Record}

/-- The path in a location. -/
def pathIn (location : String) : String := String.ofList (pathPart location.toList)

theorem pathPart_append {before : List Char}
    (h : before.all (fun c => c ≠ '?' && c ≠ '#') = true) (behind : List Char) :
    pathPart (before ++ behind) = before ++ pathPart behind :=
  List.takeWhile_append_of_pos (List.all_eq_true.mp h)

theorem base_all {p : Char → Bool} (happs : Route.appsBase.all p = true)
    (hcontracts : Route.contractsBase.all p = true) (record : Record) :
    record.base.all p = true := by
  cases record with
  | app _ => exact happs
  | version _ _ => exact happs
  | contract _ => exact hcontracts

/-- A path that starts as that of a record is about it exactly if the rest is read as its
segments. -/
theorem ofPath_base (hnames : "" ∉ record.names) (cs : List Char) :
    Route.ofPath (String.ofList (record.base ++ cs)) = .ok record.route
      ↔ decoded? cs = some record.segments := by
  cases record with
  | app a =>
    have hid : a.id ≠ "" := fun h => hnames (h ▸ List.mem_cons_self)
    refine Route.ofPath_apps_iff.trans ?_
    simp [Route.appPart?_whole, hid, Record.segments]
  | version id v =>
    have hid : id ≠ "" := fun h => hnames (h ▸ List.mem_cons_self)
    refine Route.ofPath_apps_iff.trans ?_
    simp [Route.appPart?_version, hid, Record.segments]
  | contract c => exact Route.ofPath_contracts_iff fun h => hnames (h ▸ List.mem_cons_self)

theorem toList_versionPath (id label : String) :
    (versionPath id label).toList
      = Route.appsBase ++ joined [id.toList, "versions".toList, label.toList] := by
  have hword : "/versions/".toList = '/' :: ("versions".toList ++ ['/']) := by decide
  have hjoined : joined [id.toList, "versions".toList, label.toList]
      = id.toList ++ '/' :: ("versions".toList ++ '/' :: label.toList) := by
    rw [Route.joined_cons (List.cons_ne_nil _ _), Route.joined_cons (List.cons_ne_nil _ _)]
    rfl
  rw [hjoined, versionPath, appPath, String.toList_append, String.toList_append,
    String.toList_append, hword]
  show "/api/v1/apps/".toList ++ _ ++ _ ++ _ = "/api/v1/apps/".toList ++ _
  -- the literals stay closed, or they would be taken apart into characters
  generalize "/api/v1/apps/".toList = base
  generalize "versions".toList = word
  simp only [List.append_assoc, List.cons_append, List.nil_append]

theorem location_eq (record : Record) :
    record.location.toList = record.base ++ joined (record.segments.map String.toList) := by
  cases record with
  | app a =>
    show ("/api/v1/apps/" ++ a.id).toList = "/api/v1/apps/".toList ++ a.id.toList
    rw [String.toList_append]
  | version id v => exact toList_versionPath id v.label
  | contract c =>
    show ("/api/v1/contracts/" ++ c.id).toList = "/api/v1/contracts/".toList ++ c.id.toList
    rw [String.toList_append]

/-- The path in the location of a record is about the record exactly if its names can stand in a
path as they are. -/
theorem ofPath_location (hnames : "" ∉ record.names) :
    Route.ofPath (pathIn record.location) = .ok record.route
      ↔ ∀ name ∈ record.names, Addressable name := by
  have hbase : record.base.all (fun c => c ≠ '?' && c ≠ '#') = true :=
    base_all (by decide) (by decide) record
  have hempty : "" ∉ record.segments := by
    cases record <;> simpa [Record.segments, Record.names] using hnames
  rw [pathIn, location_eq, pathPart_append hbase, ofPath_base hnames,
    Route.decoded?_pathPart (by cases record <;> simp [Record.segments]) hempty]
  cases record with
  | app a => rfl
  | contract c => rfl
  | version id v =>
    have hversions : Addressable "versions" := ⟨by decide, by decide, by decide, by decide⟩
    simp [Record.segments, Record.names, hversions]

theorem encodedLocation_eq (record : Record) : record.encodedLocation = record.place.path 0 := by
  cases record with
  | app a =>
    show "/api/v1/apps/" ++ Text.Percent.encode a.id
      = "/api/v1/apps/" ++ Text.Percent.encode a.id ++ "" ++ String.ofList []
    rw [String.ofList_nil, String.append_empty, String.append_empty]
  | version id v =>
    show "/api/v1/apps/" ++ Text.Percent.encode id ++ "/versions/" ++ Text.Percent.encode v.label
      = "/api/v1/apps/" ++ Text.Percent.encode id ++ ("/versions/" ++ Text.Percent.encode v.label)
        ++ String.ofList []
    rw [String.ofList_nil, String.append_empty, String.append_assoc]
  | contract c =>
    show "/api/v1/contracts/" ++ Text.Percent.encode c.id
      = "/api/v1/contracts/" ++ Text.Percent.encode c.id ++ String.ofList []
    rw [String.ofList_nil, String.append_empty]

/-- The path with encoded names is about the record, whatever characters they have. -/
theorem ofPath_encoded (hnames : "" ∉ record.names) :
    Route.ofPath record.encodedLocation = .ok record.route := by
  have hplace : record.place.names = record.names := by cases record <;> rfl
  have hroute : record.place.route = record.route := by cases record <;> rfl
  rw [encodedLocation_eq, Place.ofPath_path (hplace ▸ hnames), hroute]

/-! ## Answers -/

theorem jsonAnswer_eq (status : Nat) (v : Json) :
    jsonAnswer status v = ⟨status, [("content-type", "application/json")], v.prettyText⟩ := by
  rw [jsonAnswer, answer, if_pos (by decide)]

/-- What is created is told with status 201 only if its location may be sent. -/
theorem created_eq (location : String) (v : Json) :
    created location v =
      if Http.isValue location then
        ⟨201, [("content-type", "application/json"), ("location", location)], v.prettyText⟩
      else unsendable := by
  have htype : (Http.isName "content-type" && Http.isValue "application/json") = true := by decide
  have hname : Http.isName "location" = true := by decide
  rw [created, answer]
  simp only [List.all_cons, List.all_nil, htype, hname, Bool.true_and, Bool.and_true]

theorem all_joined {p : Char → Bool} (hslash : p '/' = true) (parts : List (List Char)) :
    (joined parts).all p = parts.all fun part => part.all p := by
  rw [Bool.eq_iff_iff]
  simp only [List.all_eq_true]
  constructor
  · intro h part hpart c hc
    exact h c (Route.mem_joined hpart hc)
  · intro h c hc
    rcases Route.of_mem_joined hc with rfl | ⟨part, hpart, hc⟩
    · exact hslash
    · exact h part hpart c hc

/-- A location may be sent exactly if the names in it may. -/
theorem isValue_location (record : Record) :
    Http.isValue record.location = record.names.all Http.isValue := by
  have hparts : Http.isValue record.location = record.segments.all Http.isValue := by
    have hbase : record.base.all Http.isValueChar = true :=
      base_all (by decide) (by decide) record
    rw [Http.isValue, location_eq, List.all_append, hbase, Bool.true_and,
      all_joined (by decide), List.all_map]
    rfl
  rw [hparts]
  cases record with
  | app a => rfl
  | contract c => rfl
  | version id v =>
    have hversions : Http.isValue "versions" = true := by decide
    simp only [Record.segments, Record.names, List.all_cons, List.all_nil, hversions, Bool.true_and]

/-! ## Looking at a record -/

/-- A GET of any path about a stored record shows the record. -/
theorem handle_shown [Library] {env : Surroundings} {s : Service} {g : HttpRequest}
    (hstored : record.IsStored s.store) (hmethod : g.method = "GET") (hquery : g.query = none)
    (hpath : Route.ofPath g.path = .ok record.route) (draws : Draws) :
    handle env s draws g = .done (record.shown g, s) := by
  rw [handle, hpath]
  cases record with
  | app a =>
    have hfound : s.store.app a.id = .ok a := Store.found_eq_ok.mpr hstored
    simp only [Record.route, handleRoute, handleApp, hmethod, hfound, storeAnswer, jsonAnswer_eq]
    rfl
  | version id v =>
    have hfound : s.store.version id v.label = .ok v := hstored
    simp only [Record.route, handleRoute, handleApp, hmethod, hfound, storeAnswer, jsonAnswer_eq]
    rfl
  | contract c =>
    have hfound : s.store.contract c.id = .ok c := Store.found_eq_ok.mpr hstored
    have hview : View.ofQuery? none = some .raw := by decide
    have hscript : answer 200 [("content-type", "application/vnd.js.contract")] c.source
        = ⟨200, [("content-type", "application/vnd.js.contract")], c.source⟩ := by
      rw [answer, if_pos (by decide)]
    simp only [Record.route, handleRoute, hmethod, showContract, hfound, hquery, hview,
      View.script, jsonAnswer_eq, hscript]
    rfl

/-! ## Creating a record -/

variable {env : Surroundings} {s : Service} {r : HttpRequest} {fresh id : String}

/-- What comes of a request that creates something: the service is as it was, or there is a new
record, which has names, and the answer says where it is found. -/
def Creates (s : Service) (handled : Handled) : Prop :=
  handled.2 = s ∨ ∃ record : Record, record.IsNew s.store ∧ record.IsStored handled.2.store
    ∧ "" ∉ record.names ∧ handled.1 = created record.location record.toJson

theorem createApp_creates (hfresh : fresh ≠ "") : Creates s (createApp env s fresh r) := by
  rw [createApp]
  split
  case h_1 => exact .inl rfl
  case h_2 app _ =>
    simp only [runJob, Job.run_createApp, Store.perform_createApp]
    split
    case h_1 => exact .inl rfl
    case h_2 => exact .inl rfl
    case h_3 hfree =>
      refine .inr ⟨.app (Store.complete fresh app).adopt, hfree, ?_, ?_, rfl⟩
      · rw [Record.IsStored, Table.find?_add, if_pos (Store.adopt_id _)]
      · rw [Record.names, List.mem_singleton]
        exact (Store.complete_named hfresh).symm

/-- A contract that a script makes has an identifier. -/
theorem readContract_named [Library] (hfresh : fresh ≠ "") {c : Contract}
    (h : readContract env fresh r = .ok c) : c.id ≠ "" := by
  obtain ⟨script, -, hread⟩ := bind_ok.mp h
  split at hread
  case h_2 => exact nomatch hread
  case h_1 compiled hcompiled =>
    obtain rfl : compiled = c := Except.ok.inj hread
    unfold Contract.compileWith at hcompiled
    split at hcompiled
    case h_1 => exact Contract.id_ne_ofConstraint hfresh hcompiled
    case h_2 => exact nomatch hcompiled

theorem createContract_creates [Library] (hfresh : fresh ≠ "") :
    Creates s (createContract env s fresh r) := by
  rw [createContract]
  split
  case h_1 => exact .inl rfl
  case h_2 c hread =>
    simp only [onStore, Job.onStore, Store.perform_createContract]
    cases hfree : s.store.contracts.find? c.id with
    | some old => exact .inl rfl
    | none =>
      refine .inr ⟨.contract c, hfree, ?_, ?_, rfl⟩
      · rw [Record.IsStored, Table.find?_add, if_pos rfl]
      · rw [Record.names, List.mem_singleton]
        exact (readContract_named hfresh hread).symm

/-- A version that is added under a new label is found under it. -/
theorem version_added {store : Store} {app : App} (hfind : store.apps.find? id = some app)
    {version : Version} (hfree : app.version? version.label = none) :
    Store.version { store with
        apps := store.apps.set id { app with versions := app.versions ++ [version] } }
      id version.label = .ok version := by
  have hlast : (app.versions ++ [version]).find? (fun v => v.label = version.label)
      = some version := by
    rw [App.version?] at hfree
    rw [List.find?_append, hfree]
    simp
  rw [Store.version, Store.app, Table.find?_set, if_pos rfl, hfind]
  exact Store.found_eq_ok.mpr hlast

theorem createVersion_creates (hid : id ≠ "") : Creates s (createVersion s id r) := by
  rw [createVersion]
  split
  case h_1 => exact .inl rfl
  case h_2 version hread =>
    simp only [onStore, Job.onStore, Store.perform_createVersion]
    by_cases hempty : version.label.isEmpty = true
    · rw [if_pos hempty]
      exact .inl rfl
    · rw [if_neg hempty]
      obtain ⟨e, hfail, -⟩ | ⟨app, edited, hfind, hedit, hdone⟩ :=
        Store.modifyApp_cases s.store id (Store.addVersion { version with parent := some id })
      · rw [hfail]
        exact .inl rfl
      · rw [hdone]
        obtain ⟨hfree, rfl⟩ := (Store.on_addVersion_iff _ _ _).mp hedit
        have hfree' := App.version?_eq_none.mpr hfree
        refine .inr ⟨.version id { version with parent := some id }, ⟨app, hfind, hfree'⟩,
          version_added hfind hfree', ?_, rfl⟩
        have hlabel : version.label ≠ "" := mt String.isEmpty_iff.mpr hempty
        simp [Record.names, hid.symm, hlabel.symm]

/-- What a collection is about: where records are created. -/
def IsCollection (route : Route) : Prop :=
  route = .apps ∨ route = .contracts ∨ ∃ id, route = .app id .versions

theorem handle_creates [Library] {route : Route} (hmethod : r.method = "POST")
    (hpath : Route.ofPath r.path = .ok route) (hroute : IsCollection route) (draws : Draws) :
    ∃ handled, handle env s draws r = .done handled ∧ Creates s handled := by
  have hfresh := Contract.draw_ne draws
  rw [handle, hpath]
  rcases hroute with rfl | rfl | ⟨id, rfl⟩
  · refine ⟨createApp env s (Constraint.Uuid.draw.run draws).1 r, ?_, createApp_creates hfresh⟩
    simp only [handleRoute, hmethod]
    rfl
  · refine ⟨createContract env s (Constraint.Uuid.draw.run draws).1 r, ?_,
      createContract_creates hfresh⟩
    simp only [handleRoute, hmethod]
    rfl
  · refine ⟨createVersion s id r, ?_, createVersion_creates (Route.ofPath_named hpath)⟩
    simp only [handleRoute, handleApp, hmethod]
    rfl

/-- A POST to a collection leaves the service as it is or stores a new record. The answer to it then
has status 201 and the location of the record, unless a name of the record has a control character,
so that the location may not be sent. The path in the location is about the record exactly if its
names can stand in a path as they are; the path with encoded names always is. And a GET of a path
about the record is answered with status 200 and the record. -/
theorem created_found [Library] (env : Surroundings) (s : Service) (draws : Draws) (r : HttpRequest)
    {route : Route} (hmethod : r.method = "POST") (hpath : Route.ofPath r.path = .ok route)
    (hroute : IsCollection route) :
    ∃ response s', handle env s draws r = .done (response, s')
      ∧ (s' = s ∨ ∃ record : Record, record.IsNew s.store ∧ record.IsStored s'.store
        ∧ response = (if record.names.all Http.isValue then
            ⟨201, [("content-type", "application/json"), ("location", record.location)],
              record.toJson.prettyText⟩
          else unsendable)
        ∧ (Route.ofPath (pathIn record.location) = .ok record.route
          ↔ ∀ name ∈ record.names, Addressable name)
        ∧ Route.ofPath record.encodedLocation = .ok record.route
        ∧ ∀ g : HttpRequest, g.method = "GET" → g.query = none →
          Route.ofPath g.path = .ok record.route →
          ∀ draws', handle env s' draws' g = .done (record.shown g, s')) := by
  obtain ⟨⟨response, s'⟩, hhandle, hcreates⟩ := handle_creates hmethod hpath hroute draws
  refine ⟨response, s', hhandle, ?_⟩
  rcases hcreates with hsame | ⟨record, hnew, hstored, hnames, hanswer⟩
  · exact .inl hsame
  · refine .inr ⟨record, hnew, hstored, ?_, ofPath_location hnames, ofPath_encoded hnames,
      fun g hget hquery hgpath draws' => handle_shown hstored hget hquery hgpath draws'⟩
    rw [← isValue_location, ← created_eq]
    exact hanswer

/-- A request for an app whose identifier has a slash. -/
def slashRequest : HttpRequest where
  method := "POST"
  path := "/api/v1/apps"
  body := Text.Utf8.bytes "\x7b\"id\": \"a/b\"\x7d"

section Simple

attribute [local instance] Library.simple

/-- The location of such an app is not about it; the path with its encoded identifier is. -/
theorem created_found_slash :
    let env : Surroundings := { now := ⟨0, 0⟩, binder := fun _ _ => .ok 80 }
    ∃ response s', handle env {} ⟨(· + 1), 0⟩ slashRequest = .done (response, s')
      ∧ response.headers = [("content-type", "application/json"),
        ("location", "/api/v1/apps/a/b")]
      ∧ ∃ record : Record, record.IsStored s'.store
        ∧ Route.ofPath (pathIn record.location) ≠ .ok record.route
        ∧ handle env s' ⟨(· + 1), 0⟩ { path := record.encodedLocation }
          = .done (record.shown { path := record.encodedLocation }, s') := by
  intro env
  obtain ⟨response, s', hhandle, hcreated⟩ := created_found env {} ⟨(· + 1), 0⟩ slashRequest rfl
    (by decide : Route.ofPath "/api/v1/apps" = .ok .apps) (.inl rfl)
  have hcomputed : (match handle env {} ⟨(· + 1), 0⟩ slashRequest with
      | .done (response, s') => decide (response.headers = [("content-type", "application/json"),
          ("location", "/api/v1/apps/a/b")] ∧ s'.store.apps.keys = ["a/b"])
      | _ => false) = true := by decide +kernel
  rw [hhandle] at hcomputed
  obtain ⟨hheaders, hkeys⟩ := of_decide_eq_true hcomputed
  rcases hcreated with rfl | ⟨record, -, hstored, hresponse, -, hencoded, hshown⟩
  · exact nomatch hkeys
  · refine ⟨response, s', hhandle, hheaders, record, hstored, ?_, hshown _ rfl rfl hencoded _⟩
    have hlocation : record.location = "/api/v1/apps/a/b" := by
      rw [hresponse] at hheaders
      split at hheaders
      · simpa using hheaders
      · exact nomatch hheaders
    rw [hlocation, show Route.ofPath (pathIn "/api/v1/apps/a/b") = .error .unknown by decide]
    exact nofun

end Simple

end HttpContract.Admin
