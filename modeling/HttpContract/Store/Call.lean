import HttpContract.Store.Operation

/-!
# Store.Call — calls about the versions of one app, side by side

A call about a version is prepared, its edit is made in one step that nothing interrupts, and then
it returns. Preparing and returning touch no store; what a call brings and what it answers are
settled before its edit. Calls of several clients take their steps in any order, and the calls whose
edit has succeeded are noted in the order of their edits.
-/

namespace HttpContract.Store

/-- A call about a version of an app. -/
inductive VersionCall where
  | create (version : Version)
  | update (version : Version)
  | delete (label : String)

namespace VersionCall

/-- The operation that a call asks for. -/
def operation (id : String) : VersionCall → Operation
  | create version => .createVersion id version
  | update version => .updateVersion id version
  | delete label => .deleteVersion id label

/-- What is done before the edit: a new version must have a label. It gives the edit and what is
answered if that succeeds. -/
def prepare (id : String) : VersionCall → Except StoreError (Edit Unit × Answer)
  | create version =>
    if version.label.isEmpty then .error .unlabelled
    else
      let version := { version with parent := some id }
      .ok (addVersion version, .version version)
  | update version =>
    let version := { version with parent := some id }
    .ok (replaceVersion version, .version version)
  | delete label => .ok (removeVersion label, .done)

end VersionCall

/-! ## Clients -/

/-- How far a call has come. -/
inductive Phase where
  | called
  | prepared (edit : Edit Unit) (answer : Answer)
  | edited (outcome : Except StoreError Answer)
  | returned (outcome : Except StoreError Answer)

/-- A call that is under way. -/
structure Client where
  call : VersionCall
  phase : Phase := .called

namespace Client

/-- Whether the edit of a call has succeeded. -/
def succeeded (client : Client) : Bool :=
  match client.phase with
  | .edited (.ok _) => true
  | .returned (.ok _) => true
  | _ => false

/-- The next step of a call about a version of the app under an identifier. -/
def advance (id : String) (store : Store) (client : Client) : Client × Store :=
  match client.phase with
  | .called =>
    match client.call.prepare id with
    | .error e => ({ client with phase := .returned (.error e) }, store)
    | .ok (edit, answer) => ({ client with phase := .prepared edit answer }, store)
  | .prepared edit answer =>
    let (outcome, store) := store.perform (modifyApp id edit)
    ({ client with phase := .edited (outcome.map fun _ => answer) }, store)
  | .edited outcome => ({ client with phase := .returned outcome }, store)
  | .returned _ => (client, store)

end Client

/-! ## Side by side -/

/-- A store, the calls that are under way and, in the order of the edits, those whose edit has
succeeded. -/
structure Traffic where
  store : Store
  clients : List Client
  history : List VersionCall := []

namespace Traffic

/-- Calls of which none has begun. -/
def start (store : Store) (calls : List VersionCall) : Traffic :=
  { store, clients := calls.map fun call => { call } }

/-- The calls whose edit has succeeded, in the order of the clients. -/
def succeeded (t : Traffic) : List VersionCall := (t.clients.filter (·.succeeded)).map (·.call)

/-- The client at a place takes a step. -/
def step (id : String) (t : Traffic) (place : Nat) : Traffic :=
  match t.clients[place]? with
  | none => t
  | some client =>
    let (next, store) := client.advance id t.store
    { store
      clients := t.clients.set place next
      history :=
        if next.succeeded && !client.succeeded then t.history ++ [client.call] else t.history }

/-- The clients at the places of a schedule take a step each. -/
def run (id : String) (t : Traffic) (schedule : List Nat) : Traffic := schedule.foldl (step id) t

end Traffic

end HttpContract.Store
