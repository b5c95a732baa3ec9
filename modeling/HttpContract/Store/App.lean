import HttpContract.Json.Record

/-!
# Store.App — apps and their versions

An app is a service with the versions of its interface. A version lists contracts, the first of
which has precedence, and serves them below a base path that it may give as a template.
-/

namespace HttpContract

/-- A version of an app's interface; the order of its contracts is their precedence. -/
structure Version where
  parent : Option String := none
  label : String := ""
  template : Option String := none
  contracts : List String := []
deriving DecidableEq

/-- A service with its versions; the first of its servers is the one to test against. -/
structure App where
  id : String := ""
  name : String := ""
  basePath : String := ""
  servers : List String := []
  versions : List Version := []
deriving DecidableEq

namespace Version

/-! ## Base paths -/

/-- Puts a text in the place of a mark wherever the mark occurs, from left to right; the first
`skip` characters are left out. -/
def substituteAfter (mark value : List Char) : Nat → List Char → List Char
  | _, [] => []
  | skip + 1, _ :: rest => substituteAfter mark value skip rest
  | 0, c :: rest =>
    if mark.isPrefixOf (c :: rest) then value ++ substituteAfter mark value (mark.length - 1) rest
    else c :: substituteAfter mark value 0 rest

/-- Puts a text in the place of a mark. -/
def substitute (mark value text : String) : String :=
  String.ofList (substituteAfter mark.toList value.toList 0 text.toList)

/-- What stands for the base path of the app in a template. -/
def basePathMark : String := "\x7b\x7bapp.basePath\x7d\x7d"

/-- What stands for the label of the version in a template. -/
def labelMark : String := "\x7b\x7bversion.v\x7d\x7d"

/-- The base path that a version serves under: its template, filled in, or that of the app. -/
def basePath (version : Version) (appBasePath : String) : String :=
  match version.template with
  | some template =>
    if template.isEmpty then appBasePath
    else substitute labelMark version.label (substitute basePathMark appBasePath template)
  | none => appBasePath

end Version

namespace App

/-- The version with a label. -/
def version? (app : App) (label : String) : Option Version :=
  app.versions.find? fun version => version.label = label

/-- The labels of the versions. -/
def labels (app : App) : List String := app.versions.map (·.label)

/-- The app with its versions as its own. -/
def adopt (app : App) : App :=
  { app with versions := app.versions.map fun version => { version with parent := some app.id } }

end App

/-! ## JSON -/

namespace Version

/-- A version as JSON. -/
def toJson (version : Version) : Json :=
  .object (Json.optionalTextField "parent" version.parent ++ [("v", .string version.label)]
    ++ Json.optionalTextField "path" version.template
    ++ [("contracts", Json.ofTexts version.contracts)])

/-- The version that JSON describes; unknown fields are passed over. -/
def ofJson? (v : Json.Raw) : Option Version := do
  let field ← v.record? ["parent", "v", "path", "contracts"]
  let parent ← Json.Raw.optionalText? (field "parent")
  let label ← Json.Raw.textOrEmpty? (field "v")
  let template ← Json.Raw.optionalText? (field "path")
  let contracts ← Json.Raw.listOrEmpty? Json.Raw.asString? (field "contracts")
  return ⟨parent, label, template, contracts⟩

end Version

namespace App

/-- An app as JSON. -/
def toJson (app : App) : Json :=
  .object [("id", .string app.id), ("name", .string app.name), ("basePath", .string app.basePath),
    ("servers", Json.ofTexts app.servers), ("versions", .array (app.versions.map Version.toJson))]

/-- The app that JSON describes; unknown fields are passed over. -/
def ofJson? (v : Json.Raw) : Option App := do
  let field ← v.record? ["id", "name", "basePath", "servers", "versions"]
  let id ← Json.Raw.textOrEmpty? (field "id")
  let name ← Json.Raw.textOrEmpty? (field "name")
  let basePath ← Json.Raw.textOrEmpty? (field "basePath")
  let servers ← Json.Raw.listOrEmpty? Json.Raw.asString? (field "servers")
  let versions ← Json.Raw.listOrEmpty? Version.ofJson? (field "versions")
  return ⟨id, name, basePath, servers, versions⟩

end App

end HttpContract
