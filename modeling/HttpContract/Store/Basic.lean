import HttpContract.Contract.Basic
import HttpContract.Store.App
import HttpContract.Store.Table

/-!
# Store — what is known about apps and contracts

The store keeps apps and contracts in tables. Each operation reads and changes the whole store in
one step, so that operations that run side by side act one after another. An operation that fails
has a cause and leaves the store as it was.
-/

namespace HttpContract

/-! ## Errors -/

/-- What an operation is about. -/
inductive Subject where
  | app (id : String)
  | version (label : String)
  | contract (id : String)
deriving DecidableEq

/-- A subject as messages name it. -/
def Subject.label : Subject → String
  | app id => "app " ++ id
  | version label => "version " ++ label
  | contract id => "contract " ++ id

/-- Why an operation fails. -/
inductive StoreError where
  | missing (what : Subject)
  | taken (what : Subject)
  | unlabelled
  | refused (reason : String)
deriving DecidableEq

namespace StoreError

/-- The text of an error. -/
def message : StoreError → String
  | missing what => what.label ++ " not found"
  | taken what => what.label ++ " already exists"
  | unlabelled => "invalid version: `v` is required"
  | refused reason => "invalid " ++ reason

/-- The status that tells a client about an error. -/
def status : StoreError → Nat
  | missing _ => 404
  | taken _ => 409
  | unlabelled => 400
  | refused _ => 400

end StoreError

/-! ## The store -/

/-- The apps and the contracts that are known. -/
structure Store where
  apps : Table App := {}
  contracts : Table Contract := {}

namespace Store

/-- An operation on the store, which may fail. -/
abbrev Action := ExceptT StoreError (StateM Store)

/-- Carries an operation out: what comes of it and the store that it leaves. -/
def perform {α : Type} (store : Store) (a : Action α) : Except StoreError α × Store :=
  StateT.run (ExceptT.run a) store

/-- A value that must be there. -/
def found {α : Type} (what : Subject) (v : Option α) : Except StoreError α :=
  match v with
  | some a => .ok a
  | none => .error (.missing what)

/-- Fails if something is there already. -/
def free {α : Type} (what : Subject) (v : Option α) : Except StoreError Unit :=
  match v with
  | some _ => .error (.taken what)
  | none => .ok ()

/-! ## Reading -/

/-- The app under an identifier. -/
def app (store : Store) (id : String) : Except StoreError App :=
  found (.app id) (store.apps.find? id)

/-- The contract under an identifier. -/
def contract (store : Store) (id : String) : Except StoreError Contract :=
  found (.contract id) (store.contracts.find? id)

/-- A version of an app. -/
def version (store : Store) (id label : String) : Except StoreError Version := do
  found (.version label) ((← store.app id).version? label)

/-! ## Apps -/

/-- Checks that versions have labels, each its own; `seen` are the labels before them. -/
def checkLabels (seen : List String) : List Version → Except StoreError Unit
  | [] => .ok ()
  | version :: rest =>
    if version.label.isEmpty then .error .unlabelled
    else if seen.contains version.label then .error (.taken (.version version.label))
    else checkLabels (version.label :: seen) rest

/-- Checks the versions of an app. -/
def checkVersions (app : App) : Except StoreError Unit := checkLabels [] app.versions

/-- The app with what was left out: an identifier, for which `fresh` is used, and a name. -/
def complete (fresh : String) (app : App) : App :=
  let app := if app.id.isEmpty then { app with id := fresh } else app
  if app.name.isEmpty then { app with name := app.id } else app

/-- Adds an app; one without an identifier gets `fresh`. -/
def createApp (fresh : String) (app : App) : Action App := do
  let app := complete fresh app
  checkVersions app
  let app := app.adopt
  let store ← get
  free (.app app.id) (store.apps.find? app.id)
  set { store with apps := store.apps.add app.id app }
  return app

/-- Puts an app in the place of the one with its identifier. -/
def updateApp (app : App) : Action App := do
  checkVersions app
  let app := app.adopt
  let store ← get
  let _ ← store.app app.id
  set { store with apps := store.apps.set app.id app }
  return app

/-- Takes an app away. -/
def deleteApp (id : String) : Action App := do
  let store ← get
  let app ← store.app id
  set { store with apps := store.apps.erase id }
  return app

/-- A change that is made to a copy of an app. It may fail after it has changed something. -/
abbrev Edit := ExceptT StoreError (StateM App)

/-- Makes a change to an app: whether it fails and what it leaves. -/
def Edit.on (edit : Edit Unit) (app : App) : Except StoreError Unit × App :=
  StateT.run (ExceptT.run edit) app

/-- Edits an app. What an edit leaves that fails is dropped. -/
def modifyApp (id : String) (edit : Edit Unit) : Action App := do
  let store ← get
  let app ← store.app id
  let (outcome, edited) := edit.on app
  outcome
  set { store with apps := store.apps.set id edited }
  return edited

/-! ## Versions -/

/-- Puts a further version behind those of an app. -/
def addVersion (version : Version) : Edit Unit := do
  let app ← get
  free (.version version.label) (app.version? version.label)
  set { app with versions := app.versions ++ [version] }

/-- The list with a value in the place of the first one that passes. -/
def replaceFirst {α : Type} (accept : α → Bool) (new : α) : List α → List α
  | [] => []
  | a :: rest => if accept a then new :: rest else a :: replaceFirst accept new rest

/-- Puts a version in the place of the first one with its label. -/
def replaceVersion (version : Version) : Edit Unit := do
  let app ← get
  let _ ← found (.version version.label) (app.version? version.label)
  set { app with versions := replaceFirst (·.label = version.label) version app.versions }

/-- Takes the versions of a label away; there must have been one. -/
def removeVersion (label : String) : Edit Unit := do
  let app ← get
  let kept := app.versions.filter fun version => version.label ≠ label
  set { app with versions := kept }
  if kept.length = app.versions.length then throw (.missing (.version label))

/-- Adds a version to an app. -/
def createVersion (id : String) (version : Version) : Action Version := do
  if version.label.isEmpty then throw .unlabelled
  let version := { version with parent := some id }
  let _ ← modifyApp id (addVersion version)
  return version

/-- Puts a version in the place of the one with its label. -/
def updateVersion (id : String) (version : Version) : Action Version := do
  let version := { version with parent := some id }
  let _ ← modifyApp id (replaceVersion version)
  return version

/-- Takes a version of an app away. -/
def deleteVersion (id label : String) : Action Unit := do
  let _ ← modifyApp id (removeVersion label)

/-! ## Contracts -/

/-- Adds a contract. -/
def createContract (c : Contract) : Action Contract := do
  let store ← get
  free (.contract c.id) (store.contracts.find? c.id)
  set { store with contracts := store.contracts.add c.id c }
  return c

/-- Puts a contract in the place of the one with its identifier. -/
def updateContract (c : Contract) : Action Contract := do
  let store ← get
  let _ ← store.contract c.id
  set { store with contracts := store.contracts.set c.id c }
  return c

/-- Takes a contract away. -/
def deleteContract (id : String) : Action Contract := do
  let store ← get
  let c ← store.contract id
  set { store with contracts := store.contracts.erase id }
  return c

end Store

end HttpContract
