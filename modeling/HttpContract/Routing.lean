import HttpContract.Contract.Match
import HttpContract.Store.Basic

/-!
# Routing — the contract for a request

A request to an app goes to the first contract that handles it: the versions are tried in their
order, if their base path starts the path of the request, and in each of them its contracts in
theirs. Contracts that are not stored are passed over.
-/

namespace HttpContract

open Calendar (Instant)

/-- A contract that a request goes to and the base path that it is served under. -/
structure Route where
  contract : Contract
  basePath : String

namespace Store

/-- The contract under an identifier with a base path, if the contract is stored. -/
def candidate? (store : Store) (basePath id : String) : Option Route :=
  (store.contracts.find? id).map fun contract => ⟨contract, basePath⟩

/-- What a version offers to a request at a path. -/
def versionCandidates (store : Store) (app : App) (path : String) (version : Version) :
    List Route :=
  let basePath := version.basePath app.basePath
  if basePath.toList.isPrefixOf path.toList then
    version.contracts.filterMap (store.candidate? basePath)
  else []

/-- What an app offers to a request at a path, in order of precedence. -/
def candidates (store : Store) (id path : String) : List Route :=
  match store.apps.find? id with
  | none => []
  | some app => app.versions.flatMap (store.versionCandidates app path)

variable [Library]

/-- The first of some candidates that handles a request. -/
def firstHandling? (now : Instant) (r : Request) : List Route → Drawing (Option Route)
  | [] => return none
  | route :: rest => do
    if ← route.contract.handles now route.basePath r then return some route
    else firstHandling? now r rest

/-- Where a request to an app goes. -/
def route? (store : Store) (now : Instant) (id : String) (r : Request) : Drawing (Option Route) :=
  firstHandling? now r (store.candidates id r.path)

end Store

end HttpContract
