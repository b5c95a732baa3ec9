import HttpContract.Proofs.Basic
import HttpContract.Store.Operation

/-!
# Store — what each operation comes to

One equation for each operation on apps and contracts and for each edit of versions: what is looked
up decides whether it fails, and then the store is as it was, or what it answers and which record it
changes.
-/

namespace HttpContract.Store

/-! ## Computations with a state that may fail -/

section Computation

variable {ε σ α β : Type} {s : σ}

theorem run_lift (s : σ) (x : Except ε α) :
    StateT.run (ExceptT.run (liftM x : ExceptT ε (StateM σ) α)) s = (x, s) := rfl

theorem run_get (s : σ) :
    StateT.run (ExceptT.run (get : ExceptT ε (StateM σ) σ)) s = (.ok s, s) := rfl

theorem run_set (s new : σ) :
    StateT.run (ExceptT.run (set new : ExceptT ε (StateM σ) PUnit)) s = (.ok ⟨⟩, new) := rfl

theorem run_bind (s : σ) (a : ExceptT ε (StateM σ) α) (f : α → ExceptT ε (StateM σ) β) :
    StateT.run (ExceptT.run (a >>= f)) s = match StateT.run (ExceptT.run a) s with
      | (.ok x, s) => StateT.run (ExceptT.run (f x)) s
      | (.error e, s) => (.error e, s) := by
  rcases h : StateT.run (ExceptT.run a) s with ⟨r, left⟩
  have hbind : StateT.run (ExceptT.run (a >>= f)) s
      = StateT.run (ExceptT.bindCont f (StateT.run (ExceptT.run a) s).1)
        (StateT.run (ExceptT.run a) s).2 := rfl
  rw [hbind, h]
  cases r <;> rfl

end Computation

variable {α β : Type}

theorem perform_map (store : Store) (a : Action α) (f : α → β) :
    store.perform (do return f (← a)) = ((store.perform a).1.map f, (store.perform a).2) := by
  simp only [perform, run_bind]
  rcases StateT.run (ExceptT.run a) store with ⟨r, left⟩
  cases r <;> rfl

/-! ## Apps -/

@[simp] theorem adopt_id (app : App) : app.adopt.id = app.id := rfl

theorem perform_createApp (store : Store) (fresh : String) (app : App) :
    store.perform (createApp fresh app) =
      match checkVersions (complete fresh app), store.apps.find? (complete fresh app).id with
      | .error e, _ => (.error e, store)
      | .ok _, some _ => (.error (.taken (.app (complete fresh app).id)), store)
      | .ok _, none =>
        (.ok (complete fresh app).adopt, { store with
          apps := store.apps.add (complete fresh app).id (complete fresh app).adopt }) := by
  simp only [perform, createApp, run_bind, run_lift]
  cases checkVersions (complete fresh app) with
  | error e => rfl
  | ok _ =>
    simp only [run_get, free, adopt_id]
    cases store.apps.find? (complete fresh app).id <;> rfl

theorem perform_updateApp (store : Store) (app : App) :
    store.perform (updateApp app) =
      match checkVersions app, store.apps.find? app.id with
      | .error e, _ => (.error e, store)
      | .ok _, none => (.error (.missing (.app app.id)), store)
      | .ok _, some _ =>
        (.ok app.adopt, { store with apps := store.apps.set app.id app.adopt }) := by
  simp only [perform, updateApp, run_bind, run_lift]
  cases checkVersions app with
  | error e => rfl
  | ok _ =>
    simp only [run_get, Store.app, found, adopt_id]
    cases store.apps.find? app.id <;> rfl

theorem perform_deleteApp (store : Store) (id : String) :
    store.perform (deleteApp id) =
      match store.apps.find? id with
      | none => (.error (.missing (.app id)), store)
      | some app => (.ok app, { store with apps := store.apps.erase id }) := by
  simp only [perform, deleteApp, run_bind, run_get, run_lift, Store.app, found]
  cases store.apps.find? id <;> rfl

theorem perform_modifyApp (store : Store) (id : String) (edit : Edit Unit) :
    store.perform (modifyApp id edit) =
      match store.apps.find? id with
      | none => (.error (.missing (.app id)), store)
      | some app =>
        match edit.on app with
        | (.error e, _) => (.error e, store)
        | (.ok _, edited) => (.ok edited, { store with apps := store.apps.set id edited }) := by
  simp only [perform, modifyApp, run_bind, run_get, run_lift, Store.app, found]
  cases store.apps.find? id with
  | none => rfl
  | some app =>
    simp only
    rcases edit.on app with ⟨outcome, edited⟩
    cases outcome <;> rfl

/-! ## Versions -/

theorem on_addVersion (version : Version) (app : App) :
    (addVersion version).on app =
      match app.version? version.label with
      | some _ => (.error (.taken (.version version.label)), app)
      | none => (.ok (), { app with versions := app.versions ++ [version] }) := by
  simp only [Edit.on, addVersion, run_bind, run_get, run_lift, free]
  cases app.version? version.label <;> rfl

theorem on_replaceVersion (version : Version) (app : App) :
    (replaceVersion version).on app =
      match app.version? version.label with
      | none => (.error (.missing (.version version.label)), app)
      | some _ => (.ok (), { app with
        versions := replaceFirst (·.label = version.label) version app.versions }) := by
  simp only [Edit.on, replaceVersion, run_bind, run_get, run_lift, found]
  cases app.version? version.label <;> rfl

theorem on_removeVersion (label : String) (app : App) :
    (removeVersion label).on app =
      let kept := { app with versions := app.versions.filter fun version => version.label ≠ label }
      if kept.versions.length = app.versions.length then
        (.error (.missing (.version label)), kept)
      else (.ok (), kept) := by
  simp only [Edit.on, removeVersion, run_bind, run_get, run_set]
  split <;> rfl

theorem perform_createVersion (store : Store) (id : String) (version : Version) :
    store.perform (createVersion id version) =
      if version.label.isEmpty then (.error .unlabelled, store)
      else
        ((store.perform (modifyApp id (addVersion { version with parent := some id }))).1.map
            fun _ => { version with parent := some id },
          (store.perform (modifyApp id (addVersion { version with parent := some id }))).2) := by
  unfold createVersion
  split
  · rfl
  · exact perform_map store (modifyApp id (addVersion { version with parent := some id }))
      fun _ => { version with parent := some id }

theorem perform_updateVersion (store : Store) (id : String) (version : Version) :
    store.perform (updateVersion id version) =
      ((store.perform (modifyApp id (replaceVersion { version with parent := some id }))).1.map
          fun _ => { version with parent := some id },
        (store.perform (modifyApp id (replaceVersion { version with parent := some id }))).2) :=
  perform_map store _ _

theorem perform_deleteVersion (store : Store) (id label : String) :
    store.perform (deleteVersion id label) =
      ((store.perform (modifyApp id (removeVersion label))).1.map fun _ => (),
        (store.perform (modifyApp id (removeVersion label))).2) :=
  perform_map store _ _

/-! ## Contracts -/

theorem perform_createContract (store : Store) (c : Contract) :
    store.perform (createContract c) =
      match store.contracts.find? c.id with
      | some _ => (.error (.taken (.contract c.id)), store)
      | none => (.ok c, { store with contracts := store.contracts.add c.id c }) := by
  simp only [perform, createContract, run_bind, run_get, run_lift, free]
  cases store.contracts.find? c.id <;> rfl

theorem perform_updateContract (store : Store) (c : Contract) :
    store.perform (updateContract c) =
      match store.contracts.find? c.id with
      | none => (.error (.missing (.contract c.id)), store)
      | some _ => (.ok c, { store with contracts := store.contracts.set c.id c }) := by
  simp only [perform, updateContract, run_bind, run_get, run_lift, contract, found]
  cases store.contracts.find? c.id <;> rfl

theorem perform_deleteContract (store : Store) (id : String) :
    store.perform (deleteContract id) =
      match store.contracts.find? id with
      | none => (.error (.missing (.contract id)), store)
      | some c => (.ok c, { store with contracts := store.contracts.erase id }) := by
  simp only [perform, deleteContract, run_bind, run_get, run_lift, contract, found]
  cases store.contracts.find? id <;> rfl

end HttpContract.Store
