import HttpContract.Library.Simple
import HttpContract.Proofs.Random
import HttpContract.Proofs.Store.Refinement
import HttpContract.Routing

/-!
# Routing — the first declared contract that handles a request

The contracts that an app declares stand in one list, version by version and within a version as it
lists them (`App.listings`). A request goes through this list: what offers no route is passed over
without being asked, and the first contract that handles the request gets it (`run_firstHandling?`).
So the outcome depends on the list and on the contracts in it only (`route?_congr`): operations on
other apps and other contracts leave it as it is (`Operation.Spares`), and what is declared further
down does not matter once a contract has the request (`route?_append`). `route?_first` says all of
this of every store.
-/

namespace HttpContract

open Calendar (Instant)

/-! ## What an app declares -/

/-- A contract that an app declares, with the base path of the version that declares it. -/
structure Listing where
  basePath : String
  contractId : String
deriving DecidableEq

/-- The contracts that an app declares, in the order of precedence. -/
def App.listings (app : App) : List Listing :=
  app.versions.flatMap fun version =>
    version.contracts.map fun id => ⟨version.basePath app.basePath, id⟩

namespace Store

variable {store store' : Store} {now : Instant} {id path : String} {r : Request}
  {listing : Listing} {declared : List Listing} {route : Route} {draws left : Draws}

/-- The contracts that the app under an identifier declares; none if there is no such app. -/
def listings (store : Store) (id : String) : List Listing :=
  match store.apps.find? id with
  | some app => app.listings
  | none => []

/-- The route that a declared contract offers at a path: the contract must be stored, and its base
path must start the path. -/
def offer? (store : Store) (path : String) (listing : Listing) : Option Route :=
  if listing.basePath.toList <+: path.toList then
    (store.contracts.find? listing.contractId).map fun contract => ⟨contract, listing.basePath⟩
  else none

theorem offer?_congr
    (h : store'.contracts.find? listing.contractId = store.contracts.find? listing.contractId) :
    store'.offer? path listing = store.offer? path listing := by
  rw [offer?, offer?, h]

theorem versionCandidates_eq (store : Store) (app : App) (path : String) (version : Version) :
    store.versionCandidates app path version
      = (version.contracts.map fun id => ⟨version.basePath app.basePath, id⟩).filterMap
        (store.offer? path) := by
  rw [versionCandidates, List.filterMap_map]
  by_cases hpath : (version.basePath app.basePath).toList <+: path.toList
  · rw [if_pos (List.isPrefixOf_iff_prefix.mpr hpath)]
    refine List.filterMap_congr fun id _ => ?_
    simp only [Function.comp_apply, offer?, if_pos hpath, candidate?]
  · rw [if_neg (mt List.isPrefixOf_iff_prefix.mp hpath)]
    refine (List.filterMap_eq_nil_iff.mpr fun id _ => ?_).symm
    simp only [Function.comp_apply, offer?, if_neg hpath]

/-- What is tried for a request is what the declared contracts offer, in their order. -/
theorem candidates_eq (store : Store) (id path : String) :
    store.candidates id path = (store.listings id).filterMap (store.offer? path) := by
  rw [candidates, listings]
  cases store.apps.find? id with
  | none => rfl
  | some app =>
    simp only [App.listings, List.filterMap_flatMap]
    exact congrArg app.versions.flatMap (funext (versionCandidates_eq store app path))

/-! ## Trying one after another -/

/-- A contract that declares methods and a path only handles a request by these, whatever is
drawn. -/
theorem returns_handles_plain [Library] {c : Contract} (hquery : c.request.query = [])
    (hheaders : c.request.headers = []) (hbody : c.request.body = none) (now : Instant)
    (basePath : String) (r : Request) :
    (c.handles now basePath r).Returns
      (c.request.methods.contain r.method && Contract.meets (r.context basePath) c.request.path
        (.string (Request.pathBelow basePath r.path))) := by
  simp only [Contract.handles, hquery, hheaders, hbody, Contract.meetsQuery, Contract.meetsHeaders,
    Contract.meetsBody, List.all_nil, Bool.and_self, pure_bind, if_true]
  split
  case isTrue hmet => exact hmet ▸ .pure true
  case isFalse hmiss => exact (Bool.not_eq_true _).mp hmiss ▸ .pure false

/-- Declared contracts do not get a request: each of them either offers no route or, asked for its
verdict, does not handle the request. The verdicts lead the random source from one state to
another. -/
inductive PassedOver [Library] (store : Store) (now : Instant) (r : Request) :
    List Listing → Draws → Draws → Prop where
  | nil (draws : Draws) : PassedOver store now r [] draws draws
  | absent {listing : Listing} {rest : List Listing} {draws left : Draws}
      (hoffer : store.offer? r.path listing = none)
      (hrest : PassedOver store now r rest draws left) :
      PassedOver store now r (listing :: rest) draws left
  | refused {listing : Listing} {rest : List Listing} {route : Route} {draws mid left : Draws}
      (hoffer : store.offer? r.path listing = some route)
      (hverdict : (route.contract.handles now route.basePath r).run draws = (.ok false, mid))
      (hrest : PassedOver store now r rest mid left) :
      PassedOver store now r (listing :: rest) draws left

/-- What comes of trying declared contracts: all of them are passed over, or one of them handles the
request or breaks off, and those before it are passed over. -/
def Searched [Library] (store : Store) (now : Instant) (r : Request) (declared : List Listing)
    (draws : Draws) : Except (Failure Empty) (Option Route) × Draws → Prop
  | (.ok none, left) => store.PassedOver now r declared draws left
  | (.ok (some route), left) => ∃ before listing behind mid, declared = before ++ listing :: behind
      ∧ store.PassedOver now r before draws mid ∧ store.offer? r.path listing = some route
      ∧ (route.contract.handles now route.basePath r).run mid = (.ok true, left)
  | (.error e, left) => ∃ before listing behind mid, declared = before ++ listing :: behind
      ∧ store.PassedOver now r before draws mid ∧ ∃ route, store.offer? r.path listing = some route
      ∧ (route.contract.handles now route.basePath r).run mid = (.error e, left)

theorem run_firstHandling?_cons [Library] (now : Instant) (r : Request) (route : Route)
    (rest : List Route) (draws : Draws) :
    (firstHandling? now r (route :: rest)).run draws =
      match (route.contract.handles now route.basePath r).run draws with
      | (.ok true, left) => (.ok (some route), left)
      | (.ok false, left) => (firstHandling? now r rest).run left
      | (.error e, left) => (.error e, left) := by
  rw [firstHandling?, HttpContract.run_bind]
  rcases (route.contract.handles now route.basePath r).run draws with ⟨_ | _ | _, left⟩ <;> rfl

/-- A listing that is passed over stands before those that were tried. -/
theorem Searched.cons [Library] {outcome : Except (Failure Empty) (Option Route) × Draws}
    {mid : Draws}
    (hstep : ∀ rest left, store.PassedOver now r rest mid left →
      store.PassedOver now r (listing :: rest) draws left)
    (h : store.Searched now r declared mid outcome) :
    store.Searched now r (listing :: declared) draws outcome := by
  rcases outcome with ⟨_ | _ | route, left⟩
  · obtain ⟨before, asked, behind, mid', rfl, hbefore, hverdict⟩ := h
    exact ⟨listing :: before, asked, behind, mid', rfl, hstep _ _ hbefore, hverdict⟩
  · exact hstep _ _ h
  · obtain ⟨before, taken, behind, mid', rfl, hbefore, hoffer, hverdict⟩ := h
    exact ⟨listing :: before, taken, behind, mid', rfl, hstep _ _ hbefore, hoffer, hverdict⟩

/-- The first declared contract that handles a request gets it, and none if none does, unless one
breaks off before. -/
theorem run_firstHandling? [Library] (store : Store) (now : Instant) (r : Request)
    (declared : List Listing) (draws : Draws) :
    store.Searched now r declared draws
      ((firstHandling? now r (declared.filterMap (store.offer? r.path))).run draws) := by
  induction declared generalizing draws with
  | nil => exact .nil draws
  | cons listing rest ih =>
    cases hoffer : store.offer? r.path listing with
    | none =>
      rw [List.filterMap_cons_none hoffer]
      exact (ih draws).cons fun _ _ => .absent hoffer
    | some route =>
      rw [List.filterMap_cons_some hoffer, run_firstHandling?_cons]
      rcases hverdict : (route.contract.handles now route.basePath r).run draws with
        ⟨e | _ | _, mid⟩
      · exact ⟨[], listing, rest, draws, rfl, .nil draws, route, hoffer, hverdict⟩
      · exact (ih mid).cons fun _ _ => .refused hoffer hverdict
      · exact ⟨[], listing, rest, draws, rfl, .nil draws, hoffer, hverdict⟩

/-- If every verdict is the same whatever is drawn, the first route with a good one is found. -/
theorem firstHandling?_fixed [Library] (verdict : Route → Bool) {routes : List Route}
    (h : ∀ route ∈ routes,
      (route.contract.handles now route.basePath r).Returns (verdict route)) :
    (firstHandling? now r routes).Returns (routes.find? verdict) := by
  induction routes with
  | nil => exact .pure none
  | cons route rest ih =>
    refine (h route List.mem_cons_self).bind ?_
    cases hverdict : verdict route with
    | true =>
      rw [List.find?_cons_of_pos hverdict]
      exact .pure (some route)
    | false =>
      rw [List.find?_cons_of_neg (by rw [hverdict]; exact Bool.false_ne_true)]
      exact ih fun other hother => h other (List.mem_cons_of_mem route hother)

/-- What stands behind the route that is found does not matter. -/
theorem run_firstHandling?_append [Library] {routes : List Route} (more : List Route)
    (h : (firstHandling? now r routes).run draws = (.ok (some route), left)) :
    (firstHandling? now r (routes ++ more)).run draws = (.ok (some route), left) := by
  induction routes generalizing draws with
  | nil => exact nomatch congrArg Prod.fst h
  | cons first rest ih =>
    rw [run_firstHandling?_cons] at h
    rw [List.cons_append, run_firstHandling?_cons]
    rcases hverdict : (first.contract.handles now first.basePath r).run draws with
      ⟨e | _ | _, mid⟩
    · rw [hverdict] at h
      exact nomatch congrArg Prod.fst h
    · rw [hverdict] at h
      exact ih h
    · rw [hverdict] at h
      exact h

/-! ## What the outcome depends on -/

/-- Two stores in which an app declares the same contracts and these are the same route alike. -/
theorem route?_congr [Library] (hlistings : store'.listings id = store.listings id)
    (hcontracts : ∀ listing ∈ store.listings id,
      store'.contracts.find? listing.contractId = store.contracts.find? listing.contractId) :
    store'.route? now id r = store.route? now id r := by
  rw [route?, route?, candidates_eq, candidates_eq, hlistings]
  rw [List.filterMap_congr fun listing hlisting => offer?_congr (hcontracts listing hlisting)]

/-- Where further contracts are declared behind the others, a request that went to a contract goes
to it still. -/
theorem route?_append [Library] {more : List Listing}
    (hlistings : store'.listings id = store.listings id ++ more)
    (hcontracts : ∀ listing ∈ store.listings id,
      store'.contracts.find? listing.contractId = store.contracts.find? listing.contractId)
    (h : (store.route? now id r).run draws = (.ok (some route), left)) :
    (store'.route? now id r).run draws = (.ok (some route), left) := by
  rw [route?, candidates_eq] at h
  rw [route?, candidates_eq, hlistings, List.filterMap_append,
    List.filterMap_congr fun listing hlisting => offer?_congr (hcontracts listing hlisting)]
  exact run_firstHandling?_append _ h

/-- An operation is about another app or a contract that is not among those declared. -/
def Operation.Spares (id : String) (declared : List Listing) : Operation → Prop
  | createApp fresh app => (complete fresh app).id ≠ id
  | updateApp app => app.id ≠ id
  | deleteApp other => other ≠ id
  | modifyApp other _ => other ≠ id
  | createVersion other _ => other ≠ id
  | updateVersion other _ => other ≠ id
  | deleteVersion other _ => other ≠ id
  | createContract c => ∀ listing ∈ declared, listing.contractId ≠ c.id
  | updateContract c => ∀ listing ∈ declared, listing.contractId ≠ c.id
  | deleteContract other => ∀ listing ∈ declared, listing.contractId ≠ other

/-- What routing for an app looks at is the same in two stores: the record of the app and the
contracts that are declared. -/
structure Alike (id : String) (declared : List Listing) (store store' : Store) : Prop where
  app : store'.apps.find? id = store.apps.find? id
  contracts : ∀ listing ∈ declared,
    store'.contracts.find? listing.contractId = store.contracts.find? listing.contractId

theorem Alike.refl (id : String) (declared : List Listing) (store : Store) :
    Alike id declared store store := ⟨rfl, fun _ _ => rfl⟩

theorem Alike.trans {store'' : Store} (h : Alike id declared store store')
    (h' : Alike id declared store' store'') : Alike id declared store store'' :=
  ⟨h'.app.trans h.app, fun listing hlisting =>
    (h'.contracts listing hlisting).trans (h.contracts listing hlisting)⟩

theorem Alike.ofApps {apps : Table App} (h : apps.find? id = store.apps.find? id) :
    Alike id declared store { store with apps } := ⟨h, fun _ _ => rfl⟩

theorem Alike.ofContracts {contracts : Table Contract}
    (h : ∀ listing ∈ declared,
      contracts.find? listing.contractId = store.contracts.find? listing.contractId) :
    Alike id declared store { store with contracts } := ⟨rfl, h⟩

theorem modifyApp_alike {other : String} (h : other ≠ id) (edit : Edit Unit) :
    Alike id declared store (store.perform (modifyApp other edit)).2 := by
  rw [perform_modifyApp]
  split
  · exact .refl ..
  · split
    · exact .refl ..
    · apply Alike.ofApps
      rw [Table.find?_set, if_neg h.symm]

/-- An operation elsewhere leaves what routing looks at as it is, whether it succeeds or fails. -/
theorem Operation.Spares.alike {op : Operation} (h : op.Spares id declared) (store : Store) :
    Alike id declared store (store.perform op.action).2 := by
  cases op with
  | createApp fresh app =>
    rw [Operation.action, perform_map store (Store.createApp fresh app) Answer.app,
      perform_createApp]
    split
    · exact .refl ..
    · exact .refl ..
    · apply Alike.ofApps
      rw [Table.find?_add, if_neg (Ne.symm h)]
  | updateApp app =>
    rw [Operation.action, perform_map store (Store.updateApp app) Answer.app, perform_updateApp]
    split
    · exact .refl ..
    · exact .refl ..
    · apply Alike.ofApps
      rw [Table.find?_set, if_neg (Ne.symm h)]
  | deleteApp other =>
    rw [Operation.action, perform_map store (Store.deleteApp other) Answer.app, perform_deleteApp]
    split
    · exact .refl ..
    · apply Alike.ofApps
      rw [Table.find?_erase, if_neg (Ne.symm h)]
  | modifyApp other edit =>
    rw [Operation.action, perform_map store (Store.modifyApp other edit) Answer.app]
    exact modifyApp_alike h edit
  | createVersion other version =>
    rw [Operation.action, perform_map store (Store.createVersion other version) Answer.version,
      perform_createVersion]
    split
    · exact .refl ..
    · exact modifyApp_alike h _
  | updateVersion other version =>
    rw [Operation.action, perform_map store (Store.updateVersion other version) Answer.version,
      perform_updateVersion]
    exact modifyApp_alike h _
  | deleteVersion other label =>
    rw [Operation.action, perform_map store (Store.deleteVersion other label) fun _ => Answer.done,
      perform_deleteVersion]
    exact modifyApp_alike h _
  | createContract c =>
    rw [Operation.action, perform_map store (Store.createContract c) Answer.contract,
      perform_createContract]
    split
    · exact .refl ..
    · apply Alike.ofContracts
      intro listing hlisting
      rw [Table.find?_add, if_neg (h listing hlisting)]
  | updateContract c =>
    rw [Operation.action, perform_map store (Store.updateContract c) Answer.contract,
      perform_updateContract]
    split
    · exact .refl ..
    · apply Alike.ofContracts
      intro listing hlisting
      rw [Table.find?_set, if_neg (h listing hlisting)]
  | deleteContract other =>
    rw [Operation.action, perform_map store (Store.deleteContract other) Answer.contract,
      perform_deleteContract]
    split
    · exact .refl ..
    · apply Alike.ofContracts
      intro listing hlisting
      rw [Table.find?_erase, if_neg (h listing hlisting)]

/-- Nor does a run of such operations change anything that routing looks at. -/
theorem after_alike {ops : List Operation} (h : ∀ op ∈ ops, op.Spares id declared)
    (store : Store) : Alike id declared store (store.after ops) := by
  induction ops generalizing store with
  | nil => exact .refl ..
  | cons op ops ih =>
    have hfirst := (h op List.mem_cons_self).alike store
    exact hfirst.trans (ih (fun other hother => h other (List.mem_cons_of_mem op hother)) _)

theorem Alike.listings (h : Alike id declared store store') :
    store'.listings id = store.listings id := by
  rw [Store.listings, Store.listings, h.app]

/-- A version that is added declares its contracts behind those that the app declared. -/
theorem listings_addVersion {app : App} (hfind : store.apps.find? id = some app)
    (version : Version) :
    listings { store with
        apps := store.apps.set id { app with versions := app.versions ++ [version] } } id
      = store.listings id
        ++ version.contracts.map fun contractId => ⟨version.basePath app.basePath, contractId⟩ := by
  simp only [listings, Table.find?_set, if_true, hfind, Option.map_some, App.listings,
    List.flatMap_append, List.flatMap_singleton]

/-- A request that went to a contract goes to it still when a version is added, or fails to be. -/
theorem route?_createVersion [Library] (version : Version)
    (h : (store.route? now id r).run draws = (.ok (some route), left)) :
    ((store.perform (createVersion id version)).2.route? now id r).run draws
      = (.ok (some route), left) := by
  rw [perform_createVersion]
  split
  · exact h
  · obtain ⟨e, hfail, -⟩ | ⟨app, edited, hfind, hedit, hdone⟩ :=
      modifyApp_cases store id (addVersion { version with parent := some id })
    · rw [hfail]
      exact h
    · rw [hdone]
      obtain ⟨-, rfl⟩ := (on_addVersion_iff _ _ _).mp hedit
      have hlistings := listings_addVersion hfind { version with parent := some id }
      exact route?_append hlistings (fun _ _ => rfl) h

/-! ## First match -/

/-- Where a request to an app goes, for every store and whatever is drawn: to the first contract, in
the order in which the app declares them, that is stored, whose version's base path starts the path
and that handles the request; to none if there is no such contract, nor if there is no such app. It
breaks off only where a contract does that has its turn. With verdicts that do not depend on what is
drawn this is the first offered route with a good one. Operations on other apps and on contracts
that the app does not declare change nothing; and a request that goes to a contract goes to it still
where the app declares further contracts behind the others, as when a version is added. -/
theorem route?_first [Library] (store : Store) (now : Instant) (id : String) (r : Request) :
    (∀ draws, store.Searched now r (store.listings id) draws
      ((store.route? now id r).run draws))
    ∧ (store.apps.find? id = none → store.route? now id r = pure none)
    ∧ (∀ verdict : Contract → String → Bool,
      (∀ listing ∈ store.listings id, ∀ route, store.offer? r.path listing = some route →
        (route.contract.handles now route.basePath r).Returns
          (verdict route.contract route.basePath)) →
      ∀ draws, ((store.route? now id r).run draws).1
        = .ok (((store.listings id).filterMap (store.offer? r.path)).find? fun route =>
          verdict route.contract route.basePath))
    ∧ (∀ ops : List Operation, (∀ op ∈ ops, op.Spares id (store.listings id)) →
      (store.after ops).route? now id r = store.route? now id r)
    ∧ (∀ (store' : Store) more, store'.listings id = store.listings id ++ more →
      (∀ listing ∈ store.listings id,
        store'.contracts.find? listing.contractId = store.contracts.find? listing.contractId) →
      ∀ draws route left, (store.route? now id r).run draws = (.ok (some route), left) →
        (store'.route? now id r).run draws = (.ok (some route), left))
    ∧ (∀ version draws route left, (store.route? now id r).run draws = (.ok (some route), left) →
      ((store.perform (createVersion id version)).2.route? now id r).run draws
        = (.ok (some route), left)) := by
  refine ⟨fun draws => ?_, fun hmissing => ?_, fun verdict hfixed draws => ?_, fun ops hops => ?_,
    fun store' more hlistings hcontracts draws route left h =>
      route?_append hlistings hcontracts h,
    fun version draws route left h => route?_createVersion version h⟩
  · rw [route?, candidates_eq]
    exact run_firstHandling? store now r (store.listings id) draws
  · rw [route?, candidates, hmissing]
    rfl
  · rw [route?, candidates_eq]
    refine firstHandling?_fixed (fun route => verdict route.contract route.basePath)
      (fun route hroute => ?_) draws
    obtain ⟨listing, hlisting, hoffer⟩ := List.mem_filterMap.mp hroute
    exact hfixed listing hlisting route hoffer
  · have halike := after_alike hops store
    exact route?_congr halike.listings halike.contracts

/-- A shop that lists a contract that is not stored before the two that are. -/
def shop : Store where
  apps := ⟨["shop"],
    [("shop", { id := "shop", versions := [⟨none, "1", none, ["ghost", "list", "show"]⟩] })]⟩
  contracts := ⟨["list", "show"],
    [("list", ⟨"list", "", { path := .constant (.string "/list") }, {}, ""⟩),
      ("show", ⟨"show", "", { path := .constant (.string "/show") }, {}, ""⟩)]⟩

section Simple

attribute [local instance] Library.simple

theorem route?_first_shop :
    ((shop.route? ⟨0, 0⟩ "shop" { path := "/show" }).run ⟨(· + 1), 0⟩).1.map
        (Option.map (·.contract.id)) = .ok (some "show")
    ∧ shop.route? ⟨0, 0⟩ "nobody" { path := "/show" } = pure none
    ∧ (shop.after [.createApp "fresh" {}, .deleteContract "other"]).route? ⟨0, 0⟩ "shop"
        { path := "/show" } = shop.route? ⟨0, 0⟩ "shop" { path := "/show" }
    ∧ (((shop.perform (createVersion "shop" { label := "2", contracts := ["list"] })).2.route?
        ⟨0, 0⟩ "shop" { path := "/show" }).run ⟨(· + 1), 0⟩).1.map
        (Option.map (·.contract.id)) = .ok (some "show") := by
  obtain ⟨-, -, hfixed, hframe, -, hadded⟩ := route?_first shop ⟨0, 0⟩ "shop" { path := "/show" }
  have hplain : ∀ listing ∈ shop.listings "shop", ∀ route ∈ shop.offer? "/show" listing,
      route.contract.request.query = [] ∧ route.contract.request.headers = []
        ∧ route.contract.request.body = none := by decide
  have hfound := hfixed (fun c basePath => c.request.methods.contain "GET"
      && Contract.meets (Request.context { path := "/show" } basePath) c.request.path
        (.string (Request.pathBelow basePath "/show")))
    (fun listing hlisting route hoffer => by
      obtain ⟨hquery, hheaders, hbody⟩ := hplain listing hlisting route hoffer
      exact returns_handles_plain hquery hheaders hbody _ _ _) ⟨(· + 1), 0⟩
  have hshow : ((shop.route? ⟨0, 0⟩ "shop" { path := "/show" }).run ⟨(· + 1), 0⟩).1.map
      (Option.map (·.contract.id)) = .ok (some "show") := by
    rw [hfound]
    decide +kernel
  have hspare : ∀ op ∈ [Operation.createApp "fresh" {}, .deleteContract "other"],
      op.Spares "shop" (shop.listings "shop") := by
    have happ : (complete "fresh" {}).id ≠ "shop" := by decide
    have hcontract : ∀ listing ∈ shop.listings "shop", listing.contractId ≠ "other" := by decide
    exact List.forall_mem_cons.mpr ⟨happ, List.forall_mem_singleton.mpr hcontract⟩
  refine ⟨hshow, (route?_first shop _ "nobody" _).2.1 (by decide), hframe _ hspare, ?_⟩
  rcases hrun : (shop.route? ⟨0, 0⟩ "shop" { path := "/show" }).run ⟨(· + 1), 0⟩ with
    ⟨_ | _ | route, left⟩
  · rw [hrun] at hshow
    exact nomatch hshow
  · rw [hrun] at hshow
    exact nomatch hshow
  · rw [hadded _ _ route left hrun]
    rwa [hrun] at hshow

end Simple

end Store

end HttpContract
