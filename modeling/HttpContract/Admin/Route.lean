import HttpContract.Text.Percent

/-!
# Admin.Route — what a path of the administration is about

A path names what a request is about. Identifiers and labels stand in it percent-encoded, one
segment each, so that any text can be one. Slashes at the end do not matter.
-/

namespace HttpContract.Admin

/-- What about an app a path is about. -/
inductive AppPart where
  | whole
  | versions
  | version (label : String)
  | stub
  | wireTest
  | versionWireTest (label : String)
  | contractWireTest (label id : String)
deriving DecidableEq

/-- What a path is about. -/
inductive Route where
  | root
  | health
  | metrics
  | apps
  | app (id : String) (part : AppPart)
  | contracts
  | contract (id : String)
deriving DecidableEq

/-- Why a path is about nothing. -/
inductive RouteError where
  | unknown
  | contractEncoding
  | encoding
deriving DecidableEq

/-- The text of an error. -/
def RouteError.message : RouteError → String
  | unknown => "Not Found"
  | contractEncoding => "Invalid contract id"
  | encoding => "Invalid path encoding"

/-- The status that tells a client about an error. -/
def RouteError.status : RouteError → Nat
  | unknown => 404
  | contractEncoding => 400
  | encoding => 400

namespace Route

/-! ## Segments -/

/-- The text without slashes at its end. -/
def trimSlashes (cs : List Char) : List Char := (cs.reverse.dropWhile (· = '/')).reverse

/-- The parts of a text between slashes. -/
def segments : List Char → List (List Char)
  | [] => [[]]
  | c :: rest =>
    match segments rest with
    | [] => [[c]]
    | first :: more => if c = '/' then [] :: first :: more else (c :: first) :: more

/-- The decoded parts of a path, if all of them can be decoded. -/
def decoded? (cs : List Char) : Option (List String) :=
  (segments (trimSlashes cs)).mapM fun segment => Text.Percent.decode? (String.ofList segment)

/-- What follows a word at the start of a text. -/
def after? (word : String) (cs : List Char) : Option (List Char) :=
  if word.toList.isPrefixOf cs then some (cs.drop word.toList.length) else none

/-! ## Paths -/

/-- Whether a segment is about wire tests. -/
def isWireTest (segment : String) : Bool := segment = "wiretest" || segment = "wiretests"

/-- What the segments behind an app's identifier are about. -/
def appPart? : List String → Option AppPart
  | [] => some .whole
  | [a] =>
    if a = "versions" then some .versions
    else if a = "wirestub" || a = "wirestubs" then some .stub
    else if isWireTest a then some .wireTest
    else none
  | [a, label] => if a = "versions" then some (.version label) else none
  | [a, label, b] =>
    if a = "versions" && isWireTest b then some (.versionWireTest label) else none
  | [a, label, b, id, c] =>
    if a = "versions" && b = "contracts" && isWireTest c then some (.contractWireTest label id)
    else none
  | _ => none

/-- What a path below that of the apps is about. -/
def ofAppPath (cs : List Char) : Except RouteError Route :=
  match decoded? cs with
  | none => .error .encoding
  | some [] => .error .unknown
  | some (id :: rest) =>
    if id.isEmpty then .error .unknown
    else match appPart? rest with
      | some part => .ok (.app id part)
      | none => .error .unknown

/-- What a path below that of the contracts is about. -/
def ofContractPath (cs : List Char) : Except RouteError Route :=
  match decoded? cs with
  | none => .error .contractEncoding
  | some [id] => .ok (.contract id)
  | some _ => .error .unknown

/-- What a path below that of the interface is about. -/
def ofInterfacePath (cs : List Char) : Except RouteError Route :=
  if cs = "/apps".toList then .ok .apps
  else if cs = "/contracts".toList then .ok .contracts
  else match after? "/contracts/" cs with
    | some tail => ofContractPath tail
    | none =>
      match after? "/apps/" cs with
      | some tail => ofAppPath tail
      | none => .error .unknown

/-- What a path is about. -/
def ofPath (path : String) : Except RouteError Route :=
  if path = "/api" || path = "/api/" then .ok .root
  else if path = "/health" then .ok .health
  else if path = "/metrics" then .ok .metrics
  else match after? "/api/v1" path.toList with
    | some tail => ofInterfacePath (trimSlashes tail)
    | none => .error .unknown

end Route

end HttpContract.Admin
