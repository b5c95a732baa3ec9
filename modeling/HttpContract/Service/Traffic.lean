import HttpContract.Service.Job
import HttpContract.Store.Operation

/-!
# Service.Traffic — what happens to a service

Tasks arrive at any time, and the jobs that come of them take their steps in any order. Between the
steps versions and contracts are edited. A run is a list of such events from an empty service on.
-/

namespace HttpContract

/-- What is asked for that changes apps or stubs. -/
inductive Task where
  | createApp (fresh : String) (app : App)
  | updateApp (app : App)
  | deleteApp (id : String)
  | startStub (id : String) (request : StubRequest)
  | stopStub (id : String)

/-- A task as a job of which nothing is done yet. -/
def Task.job : Task → Job
  | createApp fresh app => .createApp fresh app
  | updateApp app => .updateApp app
  | deleteApp id => .deleteApp id
  | startStub id request => .startStub id request
  | stopStub id => .stopStub id false

/-- Whether an operation is about versions or contracts, so that the apps that there are stay. -/
def Store.Operation.isEdit : Store.Operation → Bool
  | createApp _ _ => false
  | updateApp _ => false
  | deleteApp _ => false
  | _ => true

/-- What happens to a service. How listening turns out may change from step to step. -/
inductive Event where
  | arrive (task : Task)
  | turn (place : Nat) (binder : Binder)
  | edit (op : { op : Store.Operation // op.isEdit = true })

namespace Shift

/-- The empty service, with nothing to do. -/
def start : Shift := ⟨{}, []⟩

/-- What an event makes of a service and its jobs. -/
def next (defaultHost : String) (shift : Shift) : Event → Shift
  | .arrive task => { shift with jobs := shift.jobs ++ [task.job] }
  | .turn place binder => shift.step defaultHost binder place
  | .edit op => { shift with service := (Job.onStore shift.service op.val.action).2 }

/-- What a run of events makes of a service and its jobs. -/
def after (defaultHost : String) (shift : Shift) (events : List Event) : Shift :=
  events.foldl (next defaultHost) shift

end Shift

end HttpContract
