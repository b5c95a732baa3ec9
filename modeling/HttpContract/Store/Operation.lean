import HttpContract.Store.Basic

/-!
# Store.Operation — what can be asked of a store

The operations that change a store as data, so that a run is a list of them. Each is carried out by
the function of its name.
-/

namespace HttpContract.Store

/-- What can be asked of a store that changes it. -/
inductive Operation where
  | createApp (fresh : String) (app : App)
  | updateApp (app : App)
  | deleteApp (id : String)
  | modifyApp (id : String) (edit : Edit Unit)
  | createVersion (id : String) (version : Version)
  | updateVersion (id : String) (version : Version)
  | deleteVersion (id label : String)
  | createContract (c : Contract)
  | updateContract (c : Contract)
  | deleteContract (id : String)

/-- What a store answers to an operation that succeeds. -/
inductive Answer where
  | app (app : App)
  | version (version : Version)
  | contract (c : Contract)
  | done

/-- How an operation is carried out. -/
def Operation.action : Operation → Action Answer
  | createApp fresh app => return .app (← Store.createApp fresh app)
  | updateApp app => return .app (← Store.updateApp app)
  | deleteApp id => return .app (← Store.deleteApp id)
  | modifyApp id edit => return .app (← Store.modifyApp id edit)
  | createVersion id version => return .version (← Store.createVersion id version)
  | updateVersion id version => return .version (← Store.updateVersion id version)
  | deleteVersion id label => do
    Store.deleteVersion id label
    return .done
  | createContract c => return .contract (← Store.createContract c)
  | updateContract c => return .contract (← Store.updateContract c)
  | deleteContract id => return .contract (← Store.deleteContract id)

/-- The store that a run of operations leaves, whether they succeed or not. -/
def after (store : Store) (ops : List Operation) : Store :=
  ops.foldl (fun store op => (store.perform op.action).2) store

end HttpContract.Store
