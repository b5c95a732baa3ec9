import HttpContract.Store.Basic
import HttpContract.Stub.Basic

/-!
# Service.Job — changing apps and stubs, step by step

A service is a store with the stubs that run. What is asked of it is a job, which goes through
phases; going from one phase to the next is one step that nothing interrupts. Starting and stopping
stubs takes turns: a job that does so waits until no other job is between its turn and its release.
Jobs that run side by side take their steps in any order that keeps to this.
-/

namespace HttpContract

/-- What is stored and what runs. -/
structure Service where
  store : Store := {}
  stubs : Table RunningStub := {}

/-- What comes of asking for a stub. -/
inductive StubStart where
  | started (stub : RunningStub)
  | running (stub : RunningStub)

/-- What comes of a job. -/
inductive Outcome where
  | app (r : Except StoreError App)
  | deleted (r : Except StoreError (Option RunningStub))
  | start (r : Except StubError StubStart)
  | stop (r : Except StubError RunningStub)

/-- What remains to be done of a job. -/
inductive Job where
  | createApp (fresh : String) (app : App)
  | updateApp (app : App)
  | deleteApp (id : String)
  | stopStub (id : String) (afterApp : Bool)
  | removeStub (id : String) (afterApp : Bool)
  | startStub (id : String) (request : StubRequest)
  | lookForStub (id : String) (request : StubRequest)
  | lookForApp (id : String) (request : StubRequest)
  | bind (id : String) (request : StubRequest)
  | record (id : String) (stub : RunningStub)
  | release (outcome : Outcome)
  | finished (outcome : Outcome)

namespace Job

/-- Whether a job waits for its turn. -/
def waits : Job → Bool
  | stopStub _ _ => true
  | startStub _ _ => true
  | _ => false

/-- Whether it is a job's turn. -/
def holdsTurn : Job → Bool
  | removeStub _ _ => true
  | lookForStub _ _ => true
  | lookForApp _ _ => true
  | bind _ _ => true
  | record _ _ => true
  | release _ => true
  | _ => false

/-- How many steps a job takes at most. -/
def rank : Job → Nat
  | createApp _ _ => 1
  | updateApp _ => 1
  | deleteApp _ => 4
  | stopStub _ _ => 3
  | removeStub _ _ => 2
  | startStub _ _ => 6
  | lookForStub _ _ => 5
  | lookForApp _ _ => 4
  | bind _ _ => 3
  | record _ _ => 2
  | release _ => 1
  | finished _ => 0

/-- What comes of stopping a stub. -/
def stopOutcome (afterApp : Bool) (stub : Option RunningStub) : Outcome :=
  if afterApp then .deleted (.ok stub)
  else match stub with
    | some stub => .stop (.ok stub)
    | none => .stop (.error .notRunning)

/-- Carries a store operation out. -/
def onStore {α : Type} (s : Service) (a : Store.Action α) : Except StoreError α × Service :=
  let (r, store) := s.store.perform a
  (r, { s with store })

/-- The next step of a job. Stubs listen at `defaultHost` if they ask for no host. -/
def advance (defaultHost : String) (binder : Binder) (s : Service) : Job → Job × Service
  | createApp fresh app =>
    let (r, s) := onStore s (Store.createApp fresh app)
    (finished (.app r), s)
  | updateApp app =>
    let (r, s) := onStore s (Store.updateApp app)
    (finished (.app r), s)
  | deleteApp id =>
    match onStore s (Store.deleteApp id) with
    | (.ok _, s) => (stopStub id true, s)
    | (.error e, s) => (finished (.deleted (.error e)), s)
  | stopStub id afterApp => (removeStub id afterApp, s)
  | removeStub id afterApp =>
    (release (stopOutcome afterApp (s.stubs.find? id)), { s with stubs := s.stubs.erase id })
  | startStub id request => (lookForStub id request, s)
  | lookForStub id request =>
    match s.stubs.find? id with
    | some stub => (release (.start (.ok (.running stub))), s)
    | none => (lookForApp id request, s)
  | lookForApp id request =>
    match s.store.app id with
    | .ok _ => (bind id request, s)
    | .error _ => (release (.start (.error (.appMissing id))), s)
  | bind id request =>
    let host := request.host.getD defaultHost
    match binder host request.place with
    | .ok place => (record id ⟨place, host⟩, s)
    | .error .inUse => (release (.start (.error (.inUse request.place))), s)
    | .error (.other reason) => (release (.start (.error (.failed request.place reason))), s)
  | record id stub =>
    (release (.start (.ok (.started stub))), { s with stubs := s.stubs.add id stub })
  | release outcome => (finished outcome, s)
  | finished outcome => (finished outcome, s)

/-- What came of a job, once it is finished. -/
def outcome? : Job → Option Outcome
  | finished outcome => some outcome
  | _ => none

/-- A job that is not finished has steps left. -/
theorem rank_pos {job : Job} (h : job.outcome? = none) : 0 < job.rank := by
  cases job <;> simp_all [outcome?, rank]

/-- A step brings a job nearer to its end. -/
theorem rank_advance (defaultHost : String) (binder : Binder) (s : Service) (job : Job) :
    (advance defaultHost binder s job).1.rank ≤ job.rank - 1 := by
  cases job with
  | deleteApp id => simp only [advance]; split <;> simp [rank]
  | lookForStub id request => simp only [advance]; split <;> simp [rank]
  | lookForApp id request => simp only [advance]; split <;> simp [rank]
  | bind id request => simp only [advance]; split <;> simp [rank]
  | _ => simp [advance, rank]

/-- Carries a job out while no other one runs. -/
def run (defaultHost : String) (binder : Binder) (job : Job) (s : Service) : Outcome × Service :=
  match h : job.outcome? with
  | some outcome => (outcome, s)
  | none =>
    have := rank_pos h
    have := rank_advance defaultHost binder s job
    let next := advance defaultHost binder s job
    run defaultHost binder next.1 next.2
termination_by job.rank
decreasing_by omega

end Job

/-! ## Side by side -/

/-- Jobs that run side by side on a service. -/
structure Shift where
  service : Service
  jobs : List Job

namespace Shift

/-- Whether the job at a place can go on: one that waits can if it is nobody's turn. -/
def ready (shift : Shift) (job : Job) : Bool :=
  !job.waits || shift.jobs.all fun other => !other.holdsTurn

/-- The job at a place takes a step, if it can. -/
def step (defaultHost : String) (binder : Binder) (shift : Shift) (i : Nat) : Shift :=
  match shift.jobs[i]? with
  | none => shift
  | some job =>
    if shift.ready job then
      let (job, service) := job.advance defaultHost binder shift.service
      ⟨service, shift.jobs.set i job⟩
    else shift

end Shift

end HttpContract
