import HttpContract.Store.App

/-!
# Stub — listeners that answer for apps

A stub listens at an address and answers requests to one app. At most one runs for an app. It is
started at a given place or at any free one.
-/

namespace HttpContract

/-- Where a stub is to listen; the place 0 stands for any free one. -/
structure StubRequest where
  place : Nat := 0
  host : Option String := none
deriving DecidableEq

/-- Where a running stub listens. -/
structure RunningStub where
  place : Nat
  host : String
deriving DecidableEq

/-- Why nothing can listen at a place. -/
inductive BindFailure where
  | inUse
  | other (reason : String)
deriving DecidableEq

/-- How listening at a place of a host turns out: the place that was taken. -/
abbrev Binder := String → Nat → Except BindFailure Nat

/-- Why a stub is not started or stopped. -/
inductive StubError where
  | appMissing (id : String)
  | notRunning
  | inUse (place : Nat)
  | failed (place : Nat) (reason : String)
deriving DecidableEq

namespace StubError

/-- The text of an error. -/
def message : StubError → String
  | appMissing id => "App " ++ id ++ " not found"
  | notRunning => "Wirestub not found"
  | inUse place => "Port " ++ toString place ++ " is already in use"
  | failed place reason => "Failed to bind port " ++ toString place ++ ": " ++ reason

/-- The status that tells a client about an error. -/
def status : StubError → Nat
  | appMissing _ => 404
  | notRunning => 404
  | inUse _ => 409
  | failed _ _ => 500

end StubError

/-- A running stub as JSON. -/
def RunningStub.toJson (stub : RunningStub) : Json :=
  .object [("port", Json.ofInt stub.place), ("host", .string stub.host)]

/-- The place that JSON gives; 0 if it is left out. -/
def StubRequest.placeOrAny? : Option Json.Raw → Option Nat
  | none => some 0
  | some (.number written) =>
    match written.value? with
    | some (.integer n) => if 0 ≤ n.val ∧ n.val < 65536 then some n.val.toNat else none
    | _ => none
  | some _ => none

/-- The request that JSON describes; unknown fields are passed over. -/
def StubRequest.ofJson? (v : Json.Raw) : Option StubRequest := do
  let field ← v.record? ["port", "host"]
  let place ← placeOrAny? (field "port")
  let host ← Json.Raw.optionalText? (field "host")
  return ⟨place, host⟩

end HttpContract
