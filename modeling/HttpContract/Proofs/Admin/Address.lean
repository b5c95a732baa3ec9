import HttpContract.Library.Simple
import HttpContract.Admin.Handle
import HttpContract.Proofs.Admin.Path

/-!
# Admin — the paths of what is addressed by names

An app, its parts and a contract are addressed by names, which stand percent-encoded in a path
(`Place.path`). Such a path is read as what it is the path of, with the names as they are
(`Place.ofPath_path`): an encoded name has no slash, so that a name is one segment, and the words of
a path are told from names by their places among the segments.
-/

namespace HttpContract.Admin

open Admin.Route (appsBase contractsBase decoded? joined trimSlashes)
open Text.Percent (encode)

/-! ## Places -/

/-- The path of a part of an app, below that of the app. -/
def AppPart.path : AppPart → String
  | whole => ""
  | versions => "/versions"
  | version label => "/versions/" ++ encode label
  | stub => "/wirestub"
  | wireTest => "/wiretest"
  | versionWireTest label => "/versions/" ++ encode label ++ "/wiretest"
  | contractWireTest label id =>
    "/versions/" ++ encode label ++ "/contracts/" ++ encode id ++ "/wiretest"

/-- The segments of a part of an app, with their names as they are. -/
def AppPart.segments : AppPart → List String
  | whole => []
  | versions => ["versions"]
  | version label => ["versions", label]
  | stub => ["wirestub"]
  | wireTest => ["wiretest"]
  | versionWireTest label => ["versions", label, "wiretest"]
  | contractWireTest label id => ["versions", label, "contracts", id, "wiretest"]

/-- The names in a part of an app. -/
def AppPart.names : AppPart → List String
  | version label => [label]
  | versionWireTest label => [label]
  | contractWireTest label id => [label, id]
  | _ => []

theorem appPart?_segments (part : AppPart) : Route.appPart? part.segments = some part := by
  cases part <;> rfl

/-- What is addressed by names: an app or a part of it, or a contract. -/
inductive Place where
  | app (id : String) (part : AppPart)
  | contract (id : String)
deriving DecidableEq

namespace Place

/-- The names in a place. -/
def names : Place → List String
  | app id part => id :: part.names
  | contract id => [id]

/-- The path of a place, with as many slashes at its end. -/
def path (slashes : Nat) : Place → String
  | app id part =>
    "/api/v1/apps/" ++ encode id ++ part.path ++ String.ofList (List.replicate slashes '/')
  | contract id => "/api/v1/contracts/" ++ encode id ++ String.ofList (List.replicate slashes '/')

/-- What a path of a place is about. -/
def route : Place → Route
  | app id part => .app id part
  | contract id => .contract id

theorem route_injective : Function.Injective route := by
  intro place other h
  cases place <;> cases other <;> cases h <;> rfl

/-! ## Paths -/

theorem joined_cons_eq (first : List Char) (rest : List (List Char)) :
    joined (first :: rest) = first ++ rest.flatMap ('/' :: ·) := by
  induction rest generalizing first with
  | nil => simp [joined]
  | cons next rest ih =>
    rw [Route.joined_cons (List.cons_ne_nil _ _), ih, List.flatMap_cons, List.cons_append]

theorem toList_partPath (part : AppPart) :
    part.path.toList = part.segments.flatMap fun name => '/' :: (encode name).toList := by
  have hversions : encode "versions" = "versions" := by decide
  have hcontracts : encode "contracts" = "contracts" := by decide
  have hstub : encode "wirestub" = "wirestub" := by decide
  have htest : encode "wiretest" = "wiretest" := by decide
  cases part <;> simp [AppPart.path, AppPart.segments, hversions, hcontracts, hstub, htest]

/-- Encoded names are read back, however many slashes follow them. -/
theorem decoded?_slashed {names : List String} (hne : names ≠ []) (hempty : "" ∉ names)
    (slashes : Nat) :
    decoded? (joined (names.map fun name => (encode name).toList) ++ List.replicate slashes '/')
      = some names := by
  have hslashes : trimSlashes (List.replicate slashes '/') = [] := by
    simp [trimSlashes]
  rw [← Route.decoded?_trimSlashes, Route.trimSlashes_append, if_pos hslashes,
    Route.decoded?_trimSlashes, Route.decoded?_encoded hne hempty]

theorem segments_named {part : AppPart} (h : "" ∉ part.names) : "" ∉ part.segments := by
  cases part <;> simp_all [AppPart.names, AppPart.segments]

theorem path_app (slashes : Nat) (id : String) (part : AppPart) :
    path slashes (.app id part)
      = String.ofList (appsBase
        ++ (joined ((id :: part.segments).map fun name => (encode name).toList)
          ++ List.replicate slashes '/')) := by
  refine String.toList_inj.mp ?_
  rw [String.toList_ofList, List.map_cons, joined_cons_eq, List.flatMap_map, ← toList_partPath]
  show ("/api/v1/apps/" ++ encode id ++ part.path
      ++ String.ofList (List.replicate slashes '/')).toList
    = "/api/v1/apps/".toList ++ ((encode id).toList ++ part.path.toList
      ++ List.replicate slashes '/')
  -- the literal stays closed, or it would be taken apart into characters
  rw [String.toList_append, String.toList_append, String.toList_append,
    String.toList_ofList (l := List.replicate slashes '/'), List.append_assoc, List.append_assoc,
    List.append_assoc]

theorem path_contract (slashes : Nat) (id : String) :
    path slashes (.contract id)
      = String.ofList (contractsBase
        ++ (joined ([id].map fun name => (encode name).toList)
          ++ List.replicate slashes '/')) := by
  refine String.toList_inj.mp ?_
  rw [String.toList_ofList]
  show ("/api/v1/contracts/" ++ encode id ++ String.ofList (List.replicate slashes '/')).toList
    = "/api/v1/contracts/".toList ++ ((encode id).toList ++ List.replicate slashes '/')
  rw [String.toList_append, String.toList_append,
    String.toList_ofList (l := List.replicate slashes '/'), List.append_assoc]

/-- The path of a place is about the place, whatever its names are. -/
theorem ofPath_path {place : Place} (h : "" ∉ place.names) (slashes : Nat) :
    Route.ofPath (place.path slashes) = .ok place.route := by
  cases place with
  | app id part =>
    obtain ⟨hid, hpart⟩ := not_or.mp (mt List.mem_cons.mpr h)
    have hsegments : "" ∉ id :: part.segments :=
      mt List.mem_cons.mp (not_or.mpr ⟨hid, segments_named hpart⟩)
    rw [path_app, route, Route.ofPath_apps_iff]
    exact ⟨part.segments, decoded?_slashed (List.cons_ne_nil _ _) hsegments slashes, Ne.symm hid,
      appPart?_segments part⟩
  | contract id =>
    have hid : id ≠ "" := fun heq => h (heq ▸ List.mem_cons_self)
    rw [path_contract, route, Route.ofPath_contracts_iff hid]
    exact decoded?_slashed (List.cons_ne_nil _ _) h slashes

/-- A path in which the names of an app, of a part of it or of a contract stand encoded, with or
without slashes at its end, is handled as being about this place, with the names as they are, if
none of them is empty. So the paths of two places are never about the same. -/
theorem handle_path [Library] (place : Place) (hnames : "" ∉ place.names) (slashes : Nat) :
    Route.ofPath (place.path slashes) = .ok place.route
    ∧ (∀ env s draws r, r.path = place.path slashes →
        handle env s draws r = handleRoute env s draws place.route r)
    ∧ ∀ (other : Place) (behind : Nat), "" ∉ other.names → other ≠ place →
        Route.ofPath (other.path behind) ≠ Route.ofPath (place.path slashes) := by
  have hpath := ofPath_path hnames slashes
  refine ⟨hpath, ?_, ?_⟩
  · intro env s draws r hr
    rw [handle, hr, hpath]
  · intro other behind hother hne hsame
    rw [ofPath_path hother behind, hpath, Except.ok.injEq] at hsame
    exact hne (route_injective hsame)

section Simple

attribute [local instance] Library.simple

/-- Names that are words of paths themselves, with slashes and escapes in them. -/
theorem handle_path_words :
    let place : Place := .app "versions" (.contractWireTest "a/contracts/%2F" "wiretest")
    "" ∉ place.names
    ∧ place.path 2 = "/api/v1/apps/versions/versions/a%2Fcontracts%2F%252F/contracts/wiretest"
        ++ "/wiretest//"
    ∧ Route.ofPath (place.path 2)
      = .ok (.app "versions" (.contractWireTest "a/contracts/%2F" "wiretest"))
    ∧ Route.ofPath ((Place.contract "a/contracts/%2F").path 0) ≠ Route.ofPath (place.path 2) := by
  intro place
  have hnames : "" ∉ place.names := by decide
  obtain ⟨hpath, -, hother⟩ := handle_path place hnames 2
  exact ⟨hnames, by decide +kernel, hpath, hother (.contract _) 0 (by decide) (by decide)⟩

end Simple

end Place

end HttpContract.Admin
