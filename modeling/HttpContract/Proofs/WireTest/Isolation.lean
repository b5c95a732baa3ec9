import HttpContract.Proofs.Store.Refinement
import HttpContract.Proofs.WireTest.Report
import Mathlib.Logic.Function.Basic
import Mathlib.Tactic.Ring

/-!
# WireTest — contracts do not touch each other

With a server that answers a request in one way, whenever it comes, the record of a contract is the
same alone, with the other contracts of its version and with the other versions of its app, whatever
they are and in which order the requests are sent, unless one of them is broken off: then all are
(`contracts_apart`). The random numbers of one contract can be any, whatever those of the others are
(`exists_branches`).
-/

namespace HttpContract

/-! ## Random numbers -/

/-- The place among all random numbers of the `n`-th one of the `i`-th computation. -/
def diagonal (i n : Nat) : Nat := (i + n) * (i + n + 1) / 2 + n

theorem diagonal_next (k : Nat) : (k + 1) * (k + 1 + 1) / 2 = k * (k + 1) / 2 + (k + 1) := by
  have hstep : (k + 1) * (k + 1 + 1) = k * (k + 1) + 2 * (k + 1) := by ring
  rw [hstep, Nat.add_mul_div_left _ _ Nat.two_pos]

/-- A later diagonal has later places only. -/
theorem diagonal_lt {i n j m : Nat} (h : i + n < j + m) : diagonal i n < diagonal j m :=
  calc diagonal i n
    _ < (i + n) * (i + n + 1) / 2 + (i + n + 1) := by
      rw [diagonal]
      omega
    _ = (i + n + 1) * (i + n + 1 + 1) / 2 := (diagonal_next (i + n)).symm
    _ ≤ (j + m) * (j + m + 1) / 2 :=
      Nat.div_le_div_right (Nat.mul_le_mul h (Nat.add_le_add_right h 1))
    _ ≤ diagonal j m := Nat.le_add_right _ _

theorem diagonal_injective : Function.Injective fun p : Nat × Nat => diagonal p.1 p.2 := by
  rintro ⟨i, n⟩ ⟨j, m⟩ h
  have hsum : i + n = j + m := by
    rcases Nat.lt_trichotomy (i + n) (j + m) with hlt | heq | hgt
    · exact absurd h (diagonal_lt hlt).ne
    · exact heq
    · exact absurd h (diagonal_lt hgt).ne'
  simp only [diagonal, hsum] at h
  have hn : n = m := Nat.add_left_cancel h
  rw [hn] at hsum ⊢
  rw [Nat.add_right_cancel hsum]

/-- Computations that run side by side can have any random numbers each. -/
theorem exists_branches (own : Nat → Nat → Nat) :
    ∃ source, ∀ i, (Draws.mk source 0).branch i = ⟨own i, 0⟩ := by
  refine ⟨Function.extend (fun p : Nat × Nat => diagonal p.1 p.2) (fun p => own p.1 p.2) 0, ?_⟩
  intro i
  refine congrArg (Draws.mk · 0) (funext fun n => ?_)
  rw [Nat.zero_add]
  exact diagonal_injective.extend_apply (fun p => own p.1 p.2) 0 (i, n)

namespace WireTest

variable {setup setup' : Setup} {store store' : Store} {app app' : App}
variable {version version' : Version} {c : Contract} {address : String}

/-! ## Contracts -/

/-- The identifiers of the stored contracts that a version lists. -/
def listed (store : Store) (version : Version) : List String :=
  version.contracts.filter fun id => (store.contracts.find? id).isSome

/-- What comes of the stored contracts one by one comes of their identifiers. -/
theorem map_storedContracts {β : Type} {f : Contract × Nat → β} {g : String × Nat → β}
    (h : ∀ id c i, store.contracts.find? id = some c → f (c, i) = g (id, i)) :
    (storedContracts store version).zipIdx.map f = (listed store version).zipIdx.map g := by
  rw [storedContracts, listed]
  generalize 0 = n
  induction version.contracts generalizing n with
  | nil => rfl
  | cons id ids ih =>
    cases hc : store.contracts.find? id with
    | none =>
      rw [List.filterMap_cons_none hc, List.filter_cons_of_neg (by simp [hc])]
      exact ih n
    | some c =>
      rw [List.filterMap_cons_some hc, List.filter_cons_of_pos (by simp [hc]), List.zipIdx_cons,
        List.zipIdx_cons, List.map_cons, List.map_cons, ih (n + 1), h id c n hc]

/-- Of the app and the version, a test of a contract sees the identifier, the label and the base
path, and the schedule does not matter to it. -/
theorem testContract_place [Library] (hnow : setup'.now = setup.now)
    (hlimits : setup'.limits = setup.limits) (hid : app'.id = app.id)
    (hbase : app'.basePath = app.basePath) (hlabel : version'.label = version.label)
    (htemplate : version'.template = version.template) (draws : Draws) :
    testContract setup' address app' version' c draws
      = testContract setup address app version c draws := by
  have hpath : version'.basePath app'.basePath = version.basePath app.basePath := by
    rw [Version.basePath, Version.basePath, hlabel, htemplate, hbase]
  simp only [testContract, baseUrl, hnow, hlimits, hid, hlabel, hpath]

/-! ## Runs -/

/-- What comes of several tests together, unless one is broken off. -/
def allOf? {α : Type} (outcomes : List (Option α)) : Option (List α) := outcomes.mapM id

section Runs

variable {σ : Type} {answer : σ → WireRequest → Reply × σ} {f : WireRequest → Reply}
variable {id label contractId : String} {server : Option String} {draws : Draws}

/-- What a run records with someone who answers from a state, unless it is broken off. -/
def recorded {α : Type} (answer : σ → WireRequest → Reply × σ) (s : σ)
    (run : Except WireTestError (Session α)) : Except WireTestError (Option α) :=
  run.map fun session => (session.hold answer s).result

theorem runApp_ok [Library] {session : Session AppRecord} :
    runApp setup store id server draws = .ok session ↔ ∃ app ∈ store.apps.find? id,
      ∃ address, serverOf app server = .ok address
        ∧ testApp setup store address app draws = session := by
  simp only [runApp, Store.app, bind_ok, known_found_ok, pure_ok]

theorem runVersion_ok [Library] {session : Session VersionRecord} :
    runVersion setup store id label server draws = .ok session ↔ ∃ app ∈ store.apps.find? id,
      ∃ version ∈ app.version? label, ∃ address, serverOf app server = .ok address
        ∧ testVersion setup store address app draws version = session := by
  simp only [runVersion, Store.app, bind_ok, known_found_ok]
  refine exists_congr fun app => and_congr_right fun happ => ?_
  simp only [version_of_app happ, known_found_ok, pure_ok]

theorem runContract_below [Library] (happ : app ∈ store.apps.find? id)
    (hversion : version ∈ app.version? label) :
    runContract setup store id label contractId server draws = (do
      let c ← known (Store.found (.contract contractId) (store.contracts.find? contractId))
      let address ← serverOf app server
      return testContract setup address app version c draws) := by
  rw [runContract, version_of_app happ, Store.app, known_found_ok.mpr happ,
    known_found_ok.mpr hversion]
  rfl

theorem recorded_ok {α : Type} {s : σ} {run : Except WireTestError (Session α)}
    {outcome : Option α} :
    recorded answer s run = .ok outcome
      ↔ ∃ session, run = .ok session ∧ (session.hold answer s).result = outcome := map_ok

/-- What is recorded of a contract alone. -/
theorem recorded_runContract [Library] (hnow : setup'.now = setup.now)
    (hlimits : setup'.limits = setup.limits) (hsteady : ∀ s q, (answer s q).1 = f q) (s : σ)
    (happ : app ∈ store.apps.find? id) (hversion : version ∈ app.version? label)
    (hc : c ∈ store.contracts.find? contractId) (hserver : serverOf app server = .ok address) :
    recorded answer s (runContract setup' store id label contractId server draws)
      = .ok ((testContract setup address app version c draws).answered f) := by
  rw [runContract_below happ hversion, known_found_ok.mpr hc, hserver, recorded_ok]
  refine ⟨_, rfl, ?_⟩
  rw [Dialogue.hold_answered hsteady, testContract_place hnow hlimits rfl rfl rfl rfl]

theorem answered_testVersion [Library] :
    ((testVersion setup store address app draws version).answered f).map (·.contracts)
      = (storedContracts store version).zipIdx.mapM fun c =>
        (testContract setup address app version c.1 (draws.branch c.2)).answered f := by
  simp only [testVersion, testContracts, Dialogue.answered_bind, Dialogue.answered_together,
    Dialogue.answered_done, List.mapM_map, Option.map_bind, Function.comp_def, Option.map_some,
    Option.bind_fun_some]

theorem answered_testApp [Library] :
    ((testApp setup store address app draws).answered f).map (·.versions)
      = app.versions.zipIdx.mapM fun v =>
        (testVersion (setup.behind v.2) store address app (draws.branch v.2) v.1).answered f := by
  simp only [testApp, Dialogue.answered_bind, Dialogue.answered_inTurn, Dialogue.answered_done,
    List.mapM_map, Option.map_bind, Function.comp_def, Option.map_some, Option.bind_fun_some]

theorem label_testVersion [Library] {r : VersionRecord}
    (h : (testVersion setup store address app draws version).answered f = some r) :
    r.label = version.label := by
  rw [testVersion, Dialogue.answered_bind, Option.bind_eq_some_iff] at h
  obtain ⟨records, -, hr⟩ := h
  cases hr
  rfl

/-- What a test of an app records of its contracts. -/
theorem contracts_testApp [Library] :
    ((testApp setup store address app draws).answered f).map
        (fun r => r.versions.map (·.contracts))
      = (app.versions.zipIdx.map fun v => (storedContracts store v.1).zipIdx.map fun c =>
        (testContract (setup.behind v.2) address app v.1 c.1
          ((draws.branch v.2).branch c.2)).answered f).mapM allOf? := by
  have hsame : ((testApp setup store address app draws).answered f).map
        (fun r => r.versions.map (·.contracts))
      = (((testApp setup store address app draws).answered f).map (·.versions)).map
        (List.map (·.contracts)) := by rw [Option.map_map]; rfl
  rw [hsame, answered_testApp, map_mapM]
  simp only [answered_testVersion, allOf?, List.mapM_map, Function.comp_def, id_eq]

/-- The versions are recorded in their order. -/
theorem labels_testApp [Library] :
    ∀ r ∈ (testApp setup store address app draws).answered f,
      r.versions.map (·.label) = app.labels := by
  intro r hr
  have hversions : app.versions.zipIdx.mapM (fun v => (testVersion (setup.behind v.2) store address
      app (draws.branch v.2) v.1).answered f) = some r.versions := by
    rw [← answered_testApp, hr]
    rfl
  have hlabels : r.versions.map (·.label) = app.versions.zipIdx.map fun v => v.1.label := by
    refine map_eq_of_forall₂ ?_ (forall₂_of_mapM hversions)
    exact fun _ _ h => label_testVersion h
  rw [hlabels, App.labels]
  conv_rhs => rw [← List.zipIdx_map_fst 0 app.versions, List.map_map]
  rfl

/-- Two stores have in common what a contract is tested with: the identifier, the base path and the
server of the app, the template of the version, and the contract. -/
structure SameTest (server : Option String) (id label contractId : String) (store store' : Store) :
    Prop where
  places : ∃ app ∈ store.apps.find? id, ∃ app' ∈ store'.apps.find? id,
    app'.id = app.id ∧ app'.basePath = app.basePath ∧ serverOf app' server = serverOf app server
      ∧ ∃ version ∈ app.version? label, ∃ version' ∈ app'.version? label,
        version'.template = version.template
  contract : store'.contracts.find? contractId = store.contracts.find? contractId

theorem SameTest.runContract_eq [Library] (h : SameTest server id label contractId store store')
    (hnow : setup'.now = setup.now) (hlimits : setup'.limits = setup.limits) :
    runContract setup' store' id label contractId server draws
      = runContract setup store id label contractId server draws := by
  obtain ⟨⟨app, happ, app', happ', hid, hbase, hserver, version, hversion, version', hversion',
    htemplate⟩, hcontract⟩ := h
  have hlabel : version'.label = version.label := by
    obtain ⟨-, -, -, hlabel, -⟩ := App.version?_eq_some hversion
    obtain ⟨-, -, -, hlabel', -⟩ := App.version?_eq_some hversion'
    rw [hlabel, hlabel']
  rw [runContract_below happ hversion, runContract_below happ' hversion', hcontract, hserver]
  simp only [testContract_place hnow hlimits hid hbase hlabel htemplate]

/-- With a server that answers each request in one way, a contract is recorded as it is alone, with
the same random numbers, by a run of its version and by a run of its app, whatever the schedules
are, unless a contract that is tested with it is broken off alone: then the whole run is, and only
then. The records stand in the order of the versions and of the contracts that they list. A contract
alone is tested in the same way whatever else the store has, and its random numbers can be any. -/
theorem contracts_apart [Library] (hsteady : ∀ s q, (answer s q).1 = f q)
    (hnow : setup'.now = setup.now) (hlimits : setup'.limits = setup.limits) (store : Store)
    (id label : String) (server : Option String) (draws : Draws) (s s' : σ) :
    (∀ outcome, recorded answer s (runVersion setup store id label server draws) = .ok outcome →
      ∃ app ∈ store.apps.find? id, ∃ version ∈ app.version? label,
        ∃ alone : List (Option ContractRecord),
          alone.map .ok = ((listed store version).zipIdx.map fun c => recorded answer s'
            (runContract setup' store id label c.1 server (draws.branch c.2)))
          ∧ outcome.map (·.contracts) = allOf? alone)
    ∧ (∀ outcome, recorded answer s (runApp setup store id server draws) = .ok outcome →
      ∃ app ∈ store.apps.find? id, (∀ r ∈ outcome, r.versions.map (·.label) = app.labels)
        ∧ (app.labels.Nodup → ∃ alone : List (List (Option ContractRecord)),
          alone.map (·.map .ok) = (app.versions.zipIdx.map fun v =>
            (listed store v.1).zipIdx.map fun c => recorded answer s' (runContract setup' store id
              v.1.label c.1 server ((draws.branch v.2).branch c.2)))
          ∧ outcome.map (fun r => r.versions.map (·.contracts)) = alone.mapM allOf?))
    ∧ (∀ contractId store', SameTest server id label contractId store store' →
      runContract setup' store' id label contractId server draws
        = runContract setup store id label contractId server draws)
    ∧ ∀ own : Nat → Nat → Nat → Nat, ∃ draws : Draws, ∀ v c,
      (draws.branch v).branch c = ⟨own v c, 0⟩ := by
  refine ⟨fun outcome hrecorded => ?_, fun outcome hrecorded => ?_, fun contractId store' h =>
    h.runContract_eq hnow hlimits, fun own => ?_⟩
  · obtain ⟨_, hrun, rfl⟩ := recorded_ok.mp hrecorded
    obtain ⟨app, happ, version, hversion, address, hserver, rfl⟩ := runVersion_ok.mp hrun
    refine ⟨app, happ, version, hversion, (storedContracts store version).zipIdx.map fun c =>
      (testContract setup address app version c.1 (draws.branch c.2)).answered f, ?_, ?_⟩
    · rw [List.map_map]
      exact map_storedContracts fun cid c i hc =>
        (recorded_runContract hnow hlimits hsteady s' happ hversion hc hserver).symm
    · rw [Dialogue.hold_answered hsteady, answered_testVersion, allOf?, List.mapM_map,
        Function.id_comp]
  · obtain ⟨_, hrun, rfl⟩ := recorded_ok.mp hrecorded
    obtain ⟨app, happ, address, hserver, rfl⟩ := runApp_ok.mp hrun
    rw [Dialogue.hold_answered hsteady]
    refine ⟨app, happ, labels_testApp, fun hlabels => ⟨app.versions.zipIdx.map fun v =>
      (storedContracts store v.1).zipIdx.map fun c =>
        (testContract (setup.behind v.2) address app v.1 c.1
          ((draws.branch v.2).branch c.2)).answered f, ?_, ?_⟩⟩
    · rw [List.map_map]
      refine List.map_congr_left fun v hv => ?_
      have hversion := App.version?_of_mem hlabels (List.fst_mem_of_mem_zipIdx hv)
      have hnow' : setup'.now = (setup.behind v.2).now := hnow
      have hlimits' : setup'.limits = (setup.behind v.2).limits := hlimits
      rw [Function.comp_apply, List.map_map]
      exact map_storedContracts fun cid c i hc =>
        (recorded_runContract hnow' hlimits' hsteady s' happ hversion hc hserver).symm
    · exact contracts_testApp
  · choose sources hsources using fun v => exists_branches (own v)
    obtain ⟨source, hsource⟩ := exists_branches sources
    exact ⟨⟨source, 0⟩, fun v c => by rw [hsource v, hsources v c]⟩

end Runs

/-- A contract with nothing but an identifier and a name. -/
def plain (id name : String) : Contract := ⟨id, name, {}, {}, ""⟩

/-- A contract whose requests have a date from the last day of the calendar on. -/
def beyond (id : String) : Contract :=
  let date : Constraint := .matcher (.date ⟨some ⟨"YYYY-MM-DD", Calendar.Item.date⟩, none,
    some ⟨"+262142-12-31", Calendar.Instant.startOf ⟨95026236⟩⟩, none⟩)
  ⟨id, "", { headers := [("d", date)] }, {}, ""⟩

/-- A shop with two contracts. -/
def plainShop (b : Contract) : Store := shop [("a", plain "a" "a"), ("b", b)]

/-- How the instance is run: only the first of the canonical scripts is short enough. -/
def narrow (size : Nat) (schedules : List (List Nat)) : Setup := ⟨⟨0, 0⟩, { size }, schedules⟩

section Simple

attribute [local instance] Library.simple

/-- A contract that is not answered and one whose test cannot be derived are recorded as they are
alone; a contract that is broken off alone leaves no record of the other one. -/
theorem contracts_apart_silent :
    (∃ r, recorded silent () (runVersion (narrow 150 [[1, 0]]) (plainShop (plain "b" "another one"))
        "shop" "1" none ⟨fun _ => 0, 0⟩) = .ok (some r)
      ∧ r.contracts.map (fun c => (c.id, c.requests.length, c.success))
        = [("a", 1, false), ("b", 0, false)]
      ∧ ∃ alone : List (Option ContractRecord), alone.map .ok = ([("a", 0), ("b", 1)].map fun c =>
          recorded silent () (runContract (narrow 150 []) (plainShop (plain "b" "another one"))
            "shop" "1" c.1 none ((Draws.mk (fun _ => 0) 0).branch c.2)))
        ∧ some r.contracts = allOf? alone)
    ∧ recorded silent () (runVersion (narrow 999 [[1, 0]]) (plainShop (beyond "b")) "shop" "1" none
        ⟨fun _ => 0, 0⟩) = .ok none
      ∧ ∃ alone : List (Option ContractRecord), alone.map .ok = ([("a", 0), ("b", 1)].map fun c =>
          recorded silent () (runContract (narrow 999 []) (plainShop (beyond "b")) "shop" "1" c.1
            none ((Draws.mk (fun _ => 0) 0).branch c.2)))
        ∧ none = allOf? alone := by
  have hsteady : ∀ s q, (silent s q).1 = .error .timedOut := fun _ _ => rfl
  have hnow (size : Nat) : (narrow size []).now = (narrow size [[1, 0]]).now := rfl
  have hlimits (size : Nat) : (narrow size []).limits = (narrow size [[1, 0]]).limits := rfl
  have happly (size : Nat) (b : Contract) := contracts_apart hsteady (hnow size) (hlimits size)
    (plainShop b) "shop" "1" none ⟨fun _ => 0, 0⟩ () ()
  constructor
  · obtain ⟨outcome, houtcome, hrequests⟩ : ∃ outcome, recorded silent () (runVersion
          (narrow 150 [[1, 0]]) (plainShop (plain "b" "another one")) "shop" "1" none
            ⟨fun _ => 0, 0⟩) = .ok outcome
        ∧ outcome.any (fun r => r.contracts.map (fun c => (c.id, c.requests.length, c.success))
          = [("a", 1, false), ("b", 0, false)]) = true :=
      exists_ok_of_any (by decide +kernel)
    obtain ⟨r, rfl, hr⟩ := (Option.any_eq_true _ _).mp hrequests
    obtain ⟨app, happ, version, hversion, alone, halone, htogether⟩ := (happly 150 _).1 _ houtcome
    obtain rfl := Option.some.inj happ
    obtain rfl := Option.some.inj hversion
    exact ⟨r, houtcome, of_decide_eq_true hr, alone, halone, htogether⟩
  · obtain ⟨outcome, houtcome, hnone⟩ : ∃ outcome, recorded silent () (runVersion
          (narrow 999 [[1, 0]]) (plainShop (beyond "b")) "shop" "1" none ⟨fun _ => 0, 0⟩)
            = .ok outcome ∧ outcome.isNone = true :=
      exists_ok_of_any (by decide +kernel)
    rw [Option.isNone_iff_eq_none] at hnone
    subst hnone
    obtain ⟨app, happ, version, hversion, alone, halone, htogether⟩ := (happly 999 _).1 _ houtcome
    obtain rfl := Option.some.inj happ
    obtain rfl := Option.some.inj hversion
    exact ⟨houtcome, alone, halone, htogether⟩

end Simple

end WireTest

end HttpContract
