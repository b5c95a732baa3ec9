import HttpContract.Library.Simple
import HttpContract.Admin.Handle
import HttpContract.Proofs.Service.Lifecycle
import HttpContract.Proofs.WireTest.Course

/-!
# Admin — requests that fail change nothing

A request changes the service only if it succeeds and asks for a change. The store leaves what it
refuses undone (`perform_unchanged`), and a job either leaves the service as it is or comes to an
outcome that is answered as a success (`run_startStub`, `run_stopStub`, `run_deleteApp`). So every
handler is `Careful`: an answer that tells of a failure comes with the service as it was.
-/

namespace HttpContract

/-! ## Store operations that fail -/

namespace Store

variable {α : Type} {store : Store}

/-- An operation of the store that fails leaves it as it was. -/
theorem perform_unchanged (h : store.Coupled) {a : Action α} {f : α → Answer} (op : Operation)
    (hop : op.action = do return f (← a)) {e : StoreError}
    (herror : (store.perform a).1 = .error e) : (store.perform a).2 = store := by
  have hobeyed := perform_effect h op
  rw [hop, perform_map store a f, herror] at hobeyed
  exact hobeyed.1

end Store

/-! ## Jobs that run alone -/

namespace Job

variable {defaultHost : String} {binder : Binder} {s : Service} {id : String}

theorem run_finished (outcome : Outcome) (s : Service) :
    run defaultHost binder (finished outcome) s = (outcome, s) := by
  rw [run]
  rfl

theorem run_advance {job : Job} (h : job.outcome? = none) (s : Service) :
    run defaultHost binder job s
      = run defaultHost binder (advance defaultHost binder s job).1
        (advance defaultHost binder s job).2 := by
  rw [run]
  split
  case h_1 outcome hdone => cases h.symm.trans hdone
  case h_2 => rfl

theorem run_release (outcome : Outcome) (s : Service) :
    run defaultHost binder (release outcome) s = (outcome, s) := by
  rw [run_advance rfl, advance, run_finished]

theorem run_createApp (s : Service) (fresh : String) (app : App) :
    run defaultHost binder (createApp fresh app) s
      = (.app (s.store.perform (Store.createApp fresh app)).1,
        { s with store := (s.store.perform (Store.createApp fresh app)).2 }) := by
  rw [run_advance rfl, advance, onStore, run_finished]

theorem run_updateApp (s : Service) (app : App) :
    run defaultHost binder (updateApp app) s
      = (.app (s.store.perform (Store.updateApp app)).1,
        { s with store := (s.store.perform (Store.updateApp app)).2 }) := by
  rw [run_advance rfl, advance, onStore, run_finished]

theorem run_stopStub (s : Service) (id : String) (afterApp : Bool) :
    run defaultHost binder (stopStub id afterApp) s
      = (stopOutcome afterApp (s.stubs.find? id), { s with stubs := s.stubs.erase id }) := by
  rw [run_advance rfl, advance, run_advance rfl, advance, run_release]

theorem run_deleteApp (s : Service) (id : String) :
    run defaultHost binder (deleteApp id) s =
      match s.store.perform (Store.deleteApp id) with
      | (.ok _, store) =>
        (.deleted (.ok (s.stubs.find? id)), ⟨store, s.stubs.erase id⟩)
      | (.error e, store) => (.deleted (.error e), { s with store }) := by
  rw [run_advance rfl, advance, onStore]
  rcases s.store.perform (Store.deleteApp id) with ⟨_ | app, store⟩
  · exact run_finished _ _
  · exact run_stopStub _ id true

/-- A job that starts a stub records one, or it leaves the service as it is. -/
theorem run_startStub (s : Service) (id : String) (request : StubRequest) :
    (run defaultHost binder (startStub id request) s).2 = s
      ∨ ∃ stub, run defaultHost binder (startStub id request) s
        = (.start (.ok (.started stub)), { s with stubs := s.stubs.add id stub }) := by
  rw [run_advance rfl, advance, run_advance rfl, advance]
  split
  case h_1 => exact .inl (congrArg Prod.snd (run_release _ _))
  case h_2 =>
    rw [run_advance rfl, advance]
    split
    case h_2 => exact .inl (congrArg Prod.snd (run_release _ _))
    case h_1 =>
      rw [run_advance rfl, advance]
      simp only
      split
      case h_1 place _ =>
        refine .inr ⟨⟨place, request.host.getD defaultHost⟩, ?_⟩
        rw [run_advance rfl, advance, run_release]
      case h_2 => exact .inl (congrArg Prod.snd (run_release _ _))
      case h_3 => exact .inl (congrArg Prod.snd (run_release _ _))

end Job

/-! ## Handlers -/

namespace Admin

variable {env : Surroundings} {s : Service} {r : HttpRequest} {id fresh : String}

theorem status_created (location : String) (v : Json) : (created location v).status < 400 := by
  rw [created, answer]
  split
  · exact (by decide : 201 < 400)
  · exact (by decide : 200 < 400)

/-- An answer that tells of a failure comes with the service as it was. -/
def Careful (s : Service) (handled : Handled) : Prop := 400 ≤ handled.1.status → handled.2 = s

theorem Careful.same (response : HttpResponse) : Careful s (response, s) := fun _ => rfl

theorem Careful.success {response : HttpResponse} {s' : Service} (h : response.status < 400) :
    Careful s (response, s') := fun hfailed => absurd h (Nat.not_lt.mpr hfailed)

theorem careful_store {α : Type} {a : Store.Action α} {f : α → Store.Answer}
    (hcoupled : s.store.Coupled) (op : Store.Operation) (hop : op.action = do return f (← a))
    {ok : α → HttpResponse} (hok : ∀ a, (ok a).status < 400) :
    Careful s (storeAnswer ok (s.store.perform a).1,
      { s with store := (s.store.perform a).2 }) := by
  cases hresult : (s.store.perform a).1 with
  | ok a => exact .success (hok a)
  | error e =>
    rw [Store.perform_unchanged hcoupled op hop hresult]
    exact .same _

theorem createApp_careful (hcoupled : s.store.Coupled) : Careful s (createApp env s fresh r) := by
  rw [createApp]
  split
  case h_1 => exact .same _
  case h_2 app _ =>
    rw [runJob, Job.run_createApp]
    exact careful_store hcoupled (.createApp fresh app) rfl fun _ => status_created _ _

theorem updateApp_careful (hcoupled : s.store.Coupled) : Careful s (updateApp env s id r) := by
  rw [updateApp]
  split
  case h_1 => exact .same _
  case h_2 app _ =>
    simp only [runJob, Job.run_updateApp]
    exact careful_store hcoupled (.updateApp _) rfl fun _ => by decide

/-- Deleting an app fails only if the store refuses; the stub is stopped behind that. -/
theorem deleteApp_careful (hcoupled : s.store.Coupled) : Careful s (deleteApp env s id) := by
  rw [deleteApp, runJob, Job.run_deleteApp]
  rcases hresult : s.store.perform (Store.deleteApp id) with ⟨e | app, store⟩
  · have hsame : (s.store.perform (Store.deleteApp id)).2 = s.store :=
      Store.perform_unchanged hcoupled (.deleteApp id) rfl (congrArg Prod.fst hresult)
    obtain rfl : store = s.store := by rwa [hresult] at hsame
    exact .same _
  · exact .success (by decide : 204 < 400)

theorem createVersion_careful (hcoupled : s.store.Coupled) :
    Careful s (createVersion s id r) := by
  rw [createVersion]
  split
  case h_1 => exact .same _
  case h_2 version _ =>
    exact careful_store hcoupled (.createVersion id version) rfl fun _ => status_created _ _

theorem updateVersion_careful {label : String} (hcoupled : s.store.Coupled) :
    Careful s (updateVersion s id label r) := by
  rw [updateVersion]
  split
  case h_1 => exact .same _
  case h_2 version _ =>
    exact careful_store hcoupled (.updateVersion id _) rfl fun _ => by decide

theorem createContract_careful [Library] (hcoupled : s.store.Coupled) :
    Careful s (createContract env s fresh r) := by
  rw [createContract]
  split
  case h_1 => exact .same _
  case h_2 c _ =>
    exact careful_store hcoupled (.createContract c) rfl fun _ => status_created _ _

theorem updateContract_careful [Library] (hcoupled : s.store.Coupled) :
    Careful s (updateContract env s fresh id r) := by
  rw [updateContract]
  split
  case h_1 => exact .same _
  case h_2 c _ =>
    exact careful_store hcoupled (.updateContract _) rfl fun _ => by decide

theorem startStub_careful : Careful s (startStub env s id r) := by
  rw [startStub]
  split
  case h_1 => exact .same _
  case h_2 request _ =>
    simp only [runJob]
    rcases Job.run_startStub s id request with hsame | ⟨stub, hstarted⟩
    · rw [hsame]
      exact .same _
    · rw [hstarted]
      exact .success (status_created _ _)

/-- Stopping a stub that does not run takes nothing away. -/
theorem stopStub_careful (hstubs : s.stubs.Coupled) : Careful s (stopStub env s id) := by
  rw [stopStub, runJob, Job.run_stopStub]
  cases hfind : s.stubs.find? id with
  | none =>
    rw [hstubs.erase_eq_self hfind]
    exact .same _
  | some stub => exact .success (by decide : 204 < 400)

/-! ## Requests -/

/-- However handling a request goes, the service is as it was if the answer tells of a failure or
nothing but a look at it was asked for. Who only looks gets an answer. -/
structure Settles (s : Service) (r : HttpRequest) (session : WireTest.Session Handled) : Prop where
  same : ∀ exchanges handled, session.Goes exchanges handled →
    400 ≤ handled.1.status ∨ r.method = "GET" → handled.2 = s
  answered : r.method = "GET" → ∃ handled, session = .done handled

theorem Settles.shown (response : HttpResponse) : Settles s r (.done (response, s)) where
  same := by
    rintro exchanges handled ⟨⟩ -
    rfl
  answered _ := ⟨_, rfl⟩

theorem Settles.done {handled : Handled} (hmethod : r.method ≠ "GET") (h : Careful s handled) :
    Settles s r (.done handled) where
  same := by
    rintro exchanges _ ⟨⟩ (hfailed | hget)
    · exact h hfailed
    · exact absurd hget hmethod
  answered _ := ⟨_, rfl⟩

/-- Wire tests leave the service as it is, whatever the server under test answers. -/
theorem Settles.tested (hmethod : r.method ≠ "GET") (session : WireTest.Session HttpResponse) :
    Settles s r (session.bind fun response => .done (response, s)) where
  same := by
    intro exchanges handled hgoes _
    obtain ⟨response, -, rfl⟩ := hgoes.of_map
    rfl
  answered hget := absurd hget hmethod

theorem handleApp_settles [Library] (hstore : s.store.Coupled) (hstubs : s.stubs.Coupled)
    (draws : Draws) (part : AppPart) : Settles s r (handleApp env s draws id part r) := by
  have hasks {method : String} (hmethod : r.method = method) (hother : method ≠ "GET") :
      r.method ≠ "GET" := hmethod ▸ hother
  unfold handleApp
  simp only
  -- a case for each method and part of an app that is handled, and one for all others
  split
  case h_1 => exact .shown _
  case h_2 hmethod => exact .done (hasks hmethod (by decide)) (updateApp_careful hstore)
  case h_3 hmethod => exact .done (hasks hmethod (by decide)) (deleteApp_careful hstore)
  case h_4 => exact .shown _
  case h_5 hmethod => exact .done (hasks hmethod (by decide)) (createVersion_careful hstore)
  case h_6 => exact .shown _
  case h_7 hmethod => exact .done (hasks hmethod (by decide)) (updateVersion_careful hstore)
  case h_8 label hmethod =>
    exact .done (hasks hmethod (by decide))
      (careful_store hstore (.deleteVersion id label) rfl fun _ => by decide)
  case h_9 => exact .shown _
  case h_10 hmethod => exact .done (hasks hmethod (by decide)) startStub_careful
  case h_11 hmethod => exact .done (hasks hmethod (by decide)) (stopStub_careful hstubs)
  case h_12 hmethod => exact .tested (hasks hmethod (by decide)) _
  case h_13 hmethod => exact .tested (hasks hmethod (by decide)) _
  case h_14 hmethod => exact .tested (hasks hmethod (by decide)) _
  case h_15 => exact .shown _

theorem handleRoute_settles [Library] (hstore : s.store.Coupled) (hstubs : s.stubs.Coupled)
    (draws : Draws) (route : Route) : Settles s r (handleRoute env s draws route r) := by
  have hasks {method : String} (hmethod : r.method = method) (hother : method ≠ "GET") :
      r.method ≠ "GET" := hmethod ▸ hother
  unfold handleRoute
  rcases Constraint.Uuid.draw.run draws with ⟨fresh, draws⟩
  simp only
  split
  case h_1 => exact .shown _
  case h_2 => exact .shown _
  case h_3 => exact .shown _
  case h_4 => exact .shown _
  case h_5 hmethod => exact .done (hasks hmethod (by decide)) (createApp_careful hstore)
  case h_6 => exact .shown _
  case h_7 hmethod => exact .done (hasks hmethod (by decide)) (createContract_careful hstore)
  case h_8 => exact .shown _
  case h_9 hmethod => exact .done (hasks hmethod (by decide)) (updateContract_careful hstore)
  case h_10 contractId hmethod =>
    exact .done (hasks hmethod (by decide))
      (careful_store hstore (.deleteContract contractId) rfl fun _ => by decide)
  case h_11 => exact handleApp_settles hstore hstubs _ _
  case h_12 => exact .shown _

theorem handle_settles [Library] (hstore : s.store.Coupled) (hstubs : s.stubs.Coupled)
    (draws : Draws) : Settles s r (handle env s draws r) := by
  unfold handle
  split
  case h_1 route _ => exact handleRoute_settles hstore hstubs draws route
  case h_2 => exact .shown _

/-- A request that is handled by itself, wherever events have led the service, leaves apps,
contracts and stubs with their order as they are if its answer tells of a failure or if its method
is GET, whatever the servers under test answer. Only a wire test can be broken off, so that there is
no answer: a request with the method GET has one. -/
theorem handle_unchanged [Library] (defaultHost : String) (events : List Event) (env : Surroundings)
    (draws : Draws) (r : HttpRequest) {σ : Type} (server : σ → WireRequest → Reply × σ) (x : σ) :
    let s := (Shift.start.after defaultHost events).service
    let result := ((handle env s draws r).hold server x).result
    (∀ handled, result = some handled →
      400 ≤ handled.1.status ∨ r.method = "GET" → handled.2 = s)
    ∧ (r.method = "GET" → ∃ handled, result = some handled) := by
  intro s result
  have horderly : (Shift.start.after defaultHost events).Orderly :=
    Shift.Orderly.start.after events
  have hsettles : Settles s r (handle env s draws r) :=
    handle_settles horderly.store horderly.stubs draws
  refine ⟨fun handled hresult => hsettles.same _ _ (Dialogue.goes_exchanges hresult),
    fun hget => ?_⟩
  obtain ⟨handled, hdone⟩ := hsettles.answered hget
  exact ⟨handled, congrArg (fun d => (Dialogue.hold server x d).result) hdone⟩

section Simple

attribute [local instance] Library.simple

/-- An identifier that is taken, and a look at the app that has it. -/
theorem handle_unchanged_taken :
    let s := (Shift.start.after "localhost" Shift.opening).service
    let env : Surroundings := { now := ⟨0, 0⟩, binder := fun _ _ => .ok 80 }
    let upload : HttpRequest :=
      { method := "POST", path := "/api/v1/apps",
        body := Text.Utf8.bytes "\x7b\"id\": \"shop\"\x7d" }
    let look : HttpRequest := { method := "GET", path := "/api/v1/apps/shop" }
    let result (r : HttpRequest) :=
      ((handle env s ⟨(· + 1), 0⟩ r).hold (fun x _ => (.error (.failed ""), x)) ()).result
    (∃ handled, result upload = some handled ∧ handled.1.status = 409 ∧ handled.2 = s)
    ∧ ∃ handled, result look = some handled ∧ handled.2 = s := by
  intro s env upload look result
  constructor
  · have htaken : (result upload).any (·.1.status = 409) = true := by decide +kernel
    obtain ⟨handled, hresult, hstatus⟩ := (Option.any_eq_true _ _).mp htaken
    rw [decide_eq_true_eq] at hstatus
    have hfailed : 400 ≤ handled.1.status := le_of_le_of_eq (by decide) hstatus.symm
    exact ⟨handled, hresult, hstatus,
      (handle_unchanged "localhost" Shift.opening env _ upload _ _).1 handled hresult
        (.inl hfailed)⟩
  · have hsettled := handle_unchanged "localhost" Shift.opening env ⟨(· + 1), 0⟩ look
      (fun x _ => (.error (.failed ""), x)) ()
    obtain ⟨handled, hresult⟩ := hsettled.2 rfl
    exact ⟨handled, hresult, hsettled.1 handled hresult (.inr rfl)⟩

end Simple

end Admin

end HttpContract
