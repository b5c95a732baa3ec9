import HttpContract.Proofs.Store.Perform
import HttpContract.Proofs.Store.Table

/-!
# Store — operations change one record or nothing

A store is two maps that keep the order of insertion. An operation succeeds exactly if it may
(`Operation.Admissible`); then it changes the record that it addresses and no other place
(`Effect`), and otherwise it leaves the store as it was (`perform_effect`). A run keeps the order
and the records of both tables together (`Coupled.after`), so that all this holds wherever a run
leads (`perform_refines`).
-/

namespace HttpContract

/-! ## Labels of versions -/

namespace App

variable {app : App} {label : String}

/-- Versions that have labels, each its own. -/
structure Labelled (app : App) : Prop where
  named : "" ∉ app.labels
  nodup : app.labels.Nodup

theorem version?_eq_none : app.version? label = none ↔ label ∉ app.labels := by
  rw [version?, List.find?_eq_none, labels, List.mem_map]
  constructor
  · rintro h ⟨version, hmem, rfl⟩
    exact h version hmem (decide_eq_true rfl)
  · intro h version hmem hlabel
    exact h ⟨version, hmem, of_decide_eq_true hlabel⟩

theorem version?_eq_some {version : Version} (h : app.version? label = some version) :
    ∃ first rest, app.versions = first ++ version :: rest ∧ version.label = label
      ∧ label ∉ first.map (·.label) := by
  obtain ⟨hlabel, first, rest, hsplit, hfirst⟩ := List.find?_eq_some_iff_append.mp h
  refine ⟨first, rest, hsplit, of_decide_eq_true hlabel, fun hmem => ?_⟩
  obtain ⟨other, hother, rfl⟩ := List.mem_map.mp hmem
  simpa using hfirst other hother

theorem mem_labels (h : label ∈ app.labels) :
    ∃ first version rest, app.versions = first ++ version :: rest ∧ version.label = label
      ∧ label ∉ first.map (·.label) := by
  cases hfind : app.version? label with
  | none => exact absurd h (version?_eq_none.mp hfind)
  | some version =>
    obtain ⟨first, rest, hsplit⟩ := version?_eq_some hfind
    exact ⟨first, version, rest, hsplit⟩

/-- With a label for each of them, every version is the one that its label leads to. -/
theorem version?_of_mem {version : Version} (hlabels : app.labels.Nodup)
    (h : version ∈ app.versions) : app.version? version.label = some version := by
  obtain ⟨first, rest, hsplit⟩ := List.append_of_mem h
  rw [labels, hsplit, List.map_append, List.map_cons, List.nodup_append] at hlabels
  refine List.find?_eq_some_iff_append.mpr ⟨decide_eq_true rfl, first, rest, hsplit, ?_⟩
  intro other hother
  simpa using hlabels.2.2 _ (List.mem_map_of_mem hother) _ List.mem_cons_self

/-- Taking a label away leaves as many versions only if none has it. -/
theorem length_filter_label :
    (app.versions.filter fun version => version.label ≠ label).length = app.versions.length
      ↔ label ∉ app.labels := by
  rw [List.length_filter_eq_length_iff, labels, List.mem_map]
  constructor
  · rintro h ⟨version, hmem, rfl⟩
    simpa using h version hmem
  · intro h version hmem
    rw [decide_eq_true_eq]
    rintro rfl
    exact h ⟨version, hmem, rfl⟩

end App

namespace Store

theorem replaceFirst_append {α : Type} {accept : α → Bool} {first : List α} {old new : α}
    {rest : List α} (hfirst : ∀ a ∈ first, accept a = false) (hold : accept old = true) :
    replaceFirst accept new (first ++ old :: rest) = first ++ new :: rest := by
  induction first with
  | nil => simp [replaceFirst, hold]
  | cons a first ih =>
    rw [List.cons_append, replaceFirst, if_neg (by simp [hfirst a]),
      ih fun b hb => hfirst b (List.mem_cons_of_mem a hb), List.cons_append]

theorem checkLabels_ok_iff (seen : List String) (versions : List Version) :
    checkLabels seen versions = .ok () ↔
      "" ∉ versions.map (·.label) ∧ (versions.map (·.label)).Nodup
        ∧ ∀ label ∈ versions.map (·.label), label ∉ seen := by
  induction versions generalizing seen with
  | nil => simp [checkLabels]
  | cons version rest ih =>
    rw [checkLabels]
    by_cases hempty : version.label.isEmpty = true
    · simp [String.isEmpty_iff.mp hempty]
    · have hne : "" ≠ version.label := fun h => hempty (String.isEmpty_iff.mpr h.symm)
      rw [if_neg hempty]
      by_cases hseen : seen.contains version.label = true
      · rw [if_pos hseen]
        simp [List.contains_iff_mem.mp hseen]
      · rw [if_neg hseen, ih]
        have hnot : version.label ∉ seen := fun h => hseen (List.contains_iff_mem.mpr h)
        simp only [List.map_cons, List.mem_cons, List.nodup_cons, not_or, forall_eq_or_imp, hne,
          hnot, not_false_eq_true, true_and]
        grind

theorem checkVersions_ok_iff (app : App) : checkVersions app = .ok () ↔ app.Labelled := by
  rw [checkVersions, checkLabels_ok_iff]
  constructor
  · rintro ⟨hnamed, hnodup, -⟩
    exact ⟨hnamed, hnodup⟩
  · rintro ⟨hnamed, hnodup⟩
    exact ⟨hnamed, hnodup, by simp⟩

/-! ## What operations may do and what they do -/

/-- When an operation may be carried out. -/
def Operation.Admissible (store : Store) : Operation → Prop
  | createApp fresh app => app.Labelled ∧ (complete fresh app).id ∉ store.apps.keys
  | updateApp app => app.Labelled ∧ app.id ∈ store.apps.keys
  | deleteApp id => id ∈ store.apps.keys
  | modifyApp id edit => ∃ app, store.apps.find? id = some app ∧ (edit.on app).1 = .ok ()
  | createVersion id version =>
    version.label ≠ "" ∧ ∃ app, store.apps.find? id = some app ∧ version.label ∉ app.labels
  | updateVersion id version => ∃ app, store.apps.find? id = some app ∧ version.label ∈ app.labels
  | deleteVersion id label => ∃ app, store.apps.find? id = some app ∧ label ∈ app.labels
  | createContract c => c.id ∉ store.contracts.keys
  | updateContract c => c.id ∈ store.contracts.keys
  | deleteContract id => id ∈ store.contracts.keys

/-- What an operation that succeeds answers and which record it changes: the store before it, the
operation, the answer and the store behind it. -/
inductive Effect (store : Store) : Operation → Answer → Store → Prop where
  | createApp {fresh : String} {app : App} {apps : Table App}
      (h : store.apps.Added (complete fresh app).id (complete fresh app).adopt apps) :
      Effect store (.createApp fresh app) (.app (complete fresh app).adopt) { store with apps }
  | updateApp {app : App} {apps : Table App} (h : store.apps.Replaced app.id app.adopt apps) :
      Effect store (.updateApp app) (.app app.adopt) { store with apps }
  | deleteApp {id : String} {old : App} {apps : Table App} (hold : store.apps.find? id = some old)
      (h : store.apps.Removed id apps) :
      Effect store (.deleteApp id) (.app old) { store with apps }
  | modifyApp {id : String} {edit : Edit Unit} {old edited : App} {apps : Table App}
      (hold : store.apps.find? id = some old) (hedit : edit.on old = (.ok (), edited))
      (h : store.apps.Replaced id edited apps) :
      Effect store (.modifyApp id edit) (.app edited) { store with apps }
  | createVersion {id : String} {version : Version} {old : App} {apps : Table App}
      (hold : store.apps.find? id = some old) (hnew : version.label ∉ old.labels)
      (h : store.apps.Replaced id
        { old with versions := old.versions ++ [{ version with parent := some id }] } apps) :
      Effect store (.createVersion id version) (.version { version with parent := some id })
        { store with apps }
  | updateVersion {id : String} {version replaced : Version} {old : App} {apps : Table App}
      {first rest : List Version} (hold : store.apps.find? id = some old)
      (hsplit : old.versions = first ++ replaced :: rest) (hlabel : replaced.label = version.label)
      (hfirst : version.label ∉ first.map (·.label))
      (h : store.apps.Replaced id
        { old with versions := first ++ { version with parent := some id } :: rest } apps) :
      Effect store (.updateVersion id version) (.version { version with parent := some id })
        { store with apps }
  | deleteVersion {id label : String} {old : App} {apps : Table App}
      (hold : store.apps.find? id = some old) (hlabel : label ∈ old.labels)
      (h : store.apps.Replaced id
        { old with versions := old.versions.filter fun version => version.label ≠ label } apps) :
      Effect store (.deleteVersion id label) .done { store with apps }
  | createContract {c : Contract} {contracts : Table Contract}
      (h : store.contracts.Added c.id c contracts) :
      Effect store (.createContract c) (.contract c) { store with contracts }
  | updateContract {c : Contract} {contracts : Table Contract}
      (h : store.contracts.Replaced c.id c contracts) :
      Effect store (.updateContract c) (.contract c) { store with contracts }
  | deleteContract {id : String} {old : Contract} {contracts : Table Contract}
      (hold : store.contracts.find? id = some old) (h : store.contracts.Removed id contracts) :
      Effect store (.deleteContract id) (.contract old) { store with contracts }

/-- What comes of an operation: its effect if it may be carried out, and otherwise an error and the
store as it was. -/
def Operation.Obeyed (store : Store) (op : Operation) : Except StoreError Answer × Store → Prop
  | (.error _, left) => left = store ∧ ¬ op.Admissible store
  | (.ok answer, left) => op.Admissible store ∧ Effect store op answer left

/-- Both tables keep their order and their records together. -/
structure Coupled (store : Store) : Prop where
  apps : store.apps.Coupled
  contracts : store.contracts.Coupled

/-! ## Each operation -/

theorem versions_complete (fresh : String) (app : App) :
    (complete fresh app).versions = app.versions := by
  simp only [complete]
  split <;> split <;> rfl

theorem complete_labelled_iff (fresh : String) (app : App) :
    (complete fresh app).Labelled ↔ app.Labelled := by
  constructor
  · rintro ⟨hnamed, hnodup⟩
    rw [App.labels, versions_complete] at hnamed hnodup
    exact ⟨hnamed, hnodup⟩
  · rintro ⟨hnamed, hnodup⟩
    constructor <;> rwa [App.labels, versions_complete]

section Operations

variable {store : Store}

theorem createApp_obeyed (h : store.Coupled) (fresh : String) (app : App) :
    (Operation.createApp fresh app).Obeyed store
      (store.perform (Operation.createApp fresh app).action) := by
  rw [Operation.action, perform_map store (createApp fresh app) Answer.app, perform_createApp]
  have hcheck := (checkVersions_ok_iff (complete fresh app)).trans (complete_labelled_iff fresh app)
  rcases hresult : checkVersions (complete fresh app) with e | u
  · refine ⟨rfl, fun hmay => ?_⟩
    rw [hcheck.mpr hmay.1] at hresult
    cases hresult
  · cases hfind : store.apps.find? (complete fresh app).id with
    | some old => exact ⟨rfl, fun hmay => hmay.2 (h.apps.mem_of_find? hfind)⟩
    | none =>
      exact ⟨⟨hcheck.mp hresult, h.apps.not_mem_iff.mpr hfind⟩, .createApp (h.apps.added hfind _)⟩

theorem updateApp_obeyed (h : store.Coupled) (app : App) :
    (Operation.updateApp app).Obeyed store (store.perform (Operation.updateApp app).action) := by
  rw [Operation.action, perform_map store (updateApp app) Answer.app, perform_updateApp]
  rcases hresult : checkVersions app with e | u
  · refine ⟨rfl, fun hmay => ?_⟩
    rw [(checkVersions_ok_iff app).mpr hmay.1] at hresult
    cases hresult
  · cases hfind : store.apps.find? app.id with
    | none => exact ⟨rfl, fun hmay => h.apps.not_mem_iff.mpr hfind hmay.2⟩
    | some old =>
      exact ⟨⟨(checkVersions_ok_iff app).mp hresult, h.apps.mem_of_find? hfind⟩,
        .updateApp (h.apps.replaced hfind _)⟩

theorem deleteApp_obeyed (h : store.Coupled) (id : String) :
    (Operation.deleteApp id).Obeyed store (store.perform (Operation.deleteApp id).action) := by
  rw [Operation.action, perform_map store (deleteApp id) Answer.app, perform_deleteApp]
  cases hfind : store.apps.find? id with
  | none => exact ⟨rfl, h.apps.not_mem_iff.mpr hfind⟩
  | some old => exact ⟨h.apps.mem_of_find? hfind, .deleteApp hfind (h.apps.removed hfind)⟩

/-- What comes of an edit under an identifier, whatever is answered for it. -/
theorem modifyApp_cases (store : Store) (id : String) (edit : Edit Unit) :
    (∃ e, store.perform (modifyApp id edit) = (.error e, store)
      ∧ ∀ app edited, store.apps.find? id = some app → edit.on app ≠ (.ok (), edited))
    ∨ ∃ app edited, store.apps.find? id = some app ∧ edit.on app = (.ok (), edited)
      ∧ store.perform (modifyApp id edit)
        = (.ok edited, { store with apps := store.apps.set id edited }) := by
  rw [perform_modifyApp]
  cases hfind : store.apps.find? id with
  | none => exact .inl ⟨_, rfl, by simp⟩
  | some app =>
    rcases hedit : edit.on app with ⟨_ | ⟨⟩, edited⟩
    · refine .inl ⟨_, by simp only [hedit]; rfl, fun other left hother => ?_⟩
      cases hother
      simp [hedit]
    · exact .inr ⟨app, edited, rfl, hedit, by simp only [hedit]⟩

theorem modifyApp_obeyed (h : store.Coupled) (id : String) (edit : Edit Unit) :
    (Operation.modifyApp id edit).Obeyed store
      (store.perform (Operation.modifyApp id edit).action) := by
  rw [Operation.action, perform_map store (modifyApp id edit) Answer.app]
  obtain ⟨e, hfail, hnot⟩ | ⟨app, edited, hfind, hedit, hdone⟩ := modifyApp_cases store id edit
  · rw [hfail]
    refine ⟨rfl, ?_⟩
    rintro ⟨app, hfind, hok⟩
    exact hnot app _ hfind (Prod.ext hok rfl)
  · rw [hdone]
    exact ⟨⟨app, hfind, by rw [hedit]⟩, .modifyApp hfind hedit (h.apps.replaced hfind edited)⟩

theorem on_addVersion_iff (version : Version) (app edited : App) :
    (addVersion version).on app = (.ok (), edited) ↔
      version.label ∉ app.labels ∧ edited = { app with versions := app.versions ++ [version] } := by
  rw [on_addVersion, ← App.version?_eq_none]
  cases app.version? version.label with
  | none => simp [eq_comm]
  | some old => simp

theorem on_replaceVersion_iff (version : Version) (app edited : App) :
    (replaceVersion version).on app = (.ok (), edited) ↔
      ∃ first replaced rest, app.versions = first ++ replaced :: rest
        ∧ replaced.label = version.label ∧ version.label ∉ first.map (·.label)
        ∧ edited = { app with versions := first ++ version :: rest } := by
  rw [on_replaceVersion]
  cases hfind : app.version? version.label with
  | none =>
    simp only [Prod.mk.injEq, reduceCtorEq, false_and, false_iff, not_exists, not_and]
    intro first replaced rest hsplit hlabel
    refine absurd ?_ (App.version?_eq_none.mp hfind)
    rw [App.labels, hsplit, ← hlabel]
    simp
  | some old =>
    have hreplace : ∀ first replaced rest, app.versions = first ++ replaced :: rest →
        replaced.label = version.label → version.label ∉ first.map (·.label) →
        replaceFirst (·.label = version.label) version app.versions = first ++ version :: rest := by
      intro first replaced rest hsplit hlabel hfirst
      rw [hsplit]
      refine replaceFirst_append (fun other hother => ?_) (decide_eq_true hlabel)
      exact decide_eq_false fun hlabel => hfirst (List.mem_map.mpr ⟨other, hother, hlabel⟩)
    constructor
    · intro hedit
      obtain ⟨first, rest, hsplit, hlabel, hfirst⟩ := App.version?_eq_some hfind
      refine ⟨first, old, rest, hsplit, hlabel, hfirst, ?_⟩
      rw [← hreplace first old rest hsplit hlabel hfirst]
      exact (Prod.mk.inj hedit).2.symm
    · rintro ⟨first, replaced, rest, hsplit, hlabel, hfirst, rfl⟩
      simp only [hreplace first replaced rest hsplit hlabel hfirst]

theorem on_removeVersion_iff (label : String) (app edited : App) :
    (removeVersion label).on app = (.ok (), edited) ↔
      label ∈ app.labels ∧ edited = { app with
        versions := app.versions.filter fun version => version.label ≠ label } := by
  rw [on_removeVersion]
  by_cases hmem : label ∈ app.labels
  · simp only [App.length_filter_label.not.mpr (not_not.mpr hmem), if_false, hmem, true_and,
      Prod.mk.injEq, eq_comm]
  · simp only [App.length_filter_label.mpr hmem, if_true, hmem, false_and, iff_false]
    exact fun h => nomatch (Prod.mk.inj h).1

theorem createVersion_obeyed (h : store.Coupled) (id : String) (version : Version) :
    (Operation.createVersion id version).Obeyed store
      (store.perform (Operation.createVersion id version).action) := by
  rw [Operation.action, perform_map store (createVersion id version) Answer.version,
    perform_createVersion]
  by_cases hempty : version.label.isEmpty = true
  · rw [if_pos hempty]
    exact ⟨rfl, fun hmay => hmay.1 (String.isEmpty_iff.mp hempty)⟩
  · rw [if_neg hempty]
    obtain ⟨e, hfail, hnot⟩ | ⟨app, edited, hfind, hedit, hdone⟩ :=
      modifyApp_cases store id (addVersion { version with parent := some id })
    · simp only [hfail]
      refine ⟨rfl, ?_⟩
      rintro ⟨-, app, hfind, hfree⟩
      exact hnot app _ hfind ((on_addVersion_iff _ _ _).mpr ⟨hfree, rfl⟩)
    · obtain ⟨hfree, rfl⟩ := (on_addVersion_iff _ _ _).mp hedit
      simp only [hdone]
      exact ⟨⟨fun h => hempty (String.isEmpty_iff.mpr h), app, hfind, hfree⟩,
        .createVersion hfind hfree (h.apps.replaced hfind _)⟩

theorem updateVersion_obeyed (h : store.Coupled) (id : String) (version : Version) :
    (Operation.updateVersion id version).Obeyed store
      (store.perform (Operation.updateVersion id version).action) := by
  rw [Operation.action, perform_map store (updateVersion id version) Answer.version,
    perform_updateVersion]
  obtain ⟨e, hfail, hnot⟩ | ⟨app, edited, hfind, hedit, hdone⟩ :=
    modifyApp_cases store id (replaceVersion { version with parent := some id })
  · simp only [hfail]
    refine ⟨rfl, ?_⟩
    rintro ⟨app, hfind, hlabel⟩
    obtain ⟨first, replaced, rest, hsplit, hlabel, hfirst⟩ := App.mem_labels hlabel
    exact hnot app _ hfind
      ((on_replaceVersion_iff _ _ _).mpr ⟨first, replaced, rest, hsplit, hlabel, hfirst, rfl⟩)
  · obtain ⟨first, replaced, rest, hsplit, hlabel, hfirst, rfl⟩ :=
      (on_replaceVersion_iff _ _ _).mp hedit
    simp only [hdone]
    refine ⟨⟨app, hfind, ?_⟩, .updateVersion hfind hsplit hlabel hfirst (h.apps.replaced hfind _)⟩
    exact List.mem_map.mpr ⟨replaced, by simp [hsplit], hlabel⟩

theorem deleteVersion_obeyed (h : store.Coupled) (id label : String) :
    (Operation.deleteVersion id label).Obeyed store
      (store.perform (Operation.deleteVersion id label).action) := by
  rw [Operation.action, perform_map store (deleteVersion id label) fun _ => Answer.done,
    perform_deleteVersion]
  obtain ⟨e, hfail, hnot⟩ | ⟨app, edited, hfind, hedit, hdone⟩ :=
    modifyApp_cases store id (removeVersion label)
  · simp only [hfail]
    refine ⟨rfl, ?_⟩
    rintro ⟨app, hfind, hlabel⟩
    exact hnot app _ hfind ((on_removeVersion_iff _ _ _).mpr ⟨hlabel, rfl⟩)
  · obtain ⟨hlabel, rfl⟩ := (on_removeVersion_iff _ _ _).mp hedit
    simp only [hdone]
    exact ⟨⟨app, hfind, hlabel⟩, .deleteVersion hfind hlabel (h.apps.replaced hfind _)⟩

theorem createContract_obeyed (h : store.Coupled) (c : Contract) :
    (Operation.createContract c).Obeyed store
      (store.perform (Operation.createContract c).action) := by
  rw [Operation.action, perform_map store (createContract c) Answer.contract,
    perform_createContract]
  cases hfind : store.contracts.find? c.id with
  | some old => exact ⟨rfl, fun hnew => hnew (h.contracts.mem_of_find? hfind)⟩
  | none =>
    exact ⟨h.contracts.not_mem_iff.mpr hfind, .createContract (h.contracts.added hfind c)⟩

theorem updateContract_obeyed (h : store.Coupled) (c : Contract) :
    (Operation.updateContract c).Obeyed store
      (store.perform (Operation.updateContract c).action) := by
  rw [Operation.action, perform_map store (updateContract c) Answer.contract,
    perform_updateContract]
  cases hfind : store.contracts.find? c.id with
  | none => exact ⟨rfl, h.contracts.not_mem_iff.mpr hfind⟩
  | some old =>
    exact ⟨h.contracts.mem_of_find? hfind, .updateContract (h.contracts.replaced hfind c)⟩

theorem deleteContract_obeyed (h : store.Coupled) (id : String) :
    (Operation.deleteContract id).Obeyed store
      (store.perform (Operation.deleteContract id).action) := by
  rw [Operation.action, perform_map store (deleteContract id) Answer.contract,
    perform_deleteContract]
  cases hfind : store.contracts.find? id with
  | none => exact ⟨rfl, h.contracts.not_mem_iff.mpr hfind⟩
  | some old =>
    exact ⟨h.contracts.mem_of_find? hfind, .deleteContract hfind (h.contracts.removed hfind)⟩

/-- An operation that may be carried out has its effect; any other leaves the store as it was. -/
theorem perform_effect (h : store.Coupled) (op : Operation) :
    op.Obeyed store (store.perform op.action) := by
  cases op with
  | createApp fresh app => exact createApp_obeyed h fresh app
  | updateApp app => exact updateApp_obeyed h app
  | deleteApp id => exact deleteApp_obeyed h id
  | modifyApp id edit => exact modifyApp_obeyed h id edit
  | createVersion id version => exact createVersion_obeyed h id version
  | updateVersion id version => exact updateVersion_obeyed h id version
  | deleteVersion id label => exact deleteVersion_obeyed h id label
  | createContract c => exact createContract_obeyed h c
  | updateContract c => exact updateContract_obeyed h c
  | deleteContract id => exact deleteContract_obeyed h id

end Operations

/-! ## Runs -/

section Runs

variable {store left : Store} {op : Operation} {answer : Answer}

theorem Coupled.empty : Coupled {} := ⟨.empty, .empty⟩

theorem Effect.coupled (h : store.Coupled) (heffect : Effect store op answer left) :
    left.Coupled := by
  cases heffect with
  | createApp hadd => exact ⟨hadd.coupled h.apps, h.contracts⟩
  | updateApp hset => exact ⟨hset.coupled h.apps, h.contracts⟩
  | deleteApp _ hremove => exact ⟨hremove.coupled h.apps, h.contracts⟩
  | modifyApp _ _ hset => exact ⟨hset.coupled h.apps, h.contracts⟩
  | createVersion _ _ hset => exact ⟨hset.coupled h.apps, h.contracts⟩
  | updateVersion _ _ _ _ hset => exact ⟨hset.coupled h.apps, h.contracts⟩
  | deleteVersion _ _ hset => exact ⟨hset.coupled h.apps, h.contracts⟩
  | createContract hadd => exact ⟨h.apps, hadd.coupled h.contracts⟩
  | updateContract hset => exact ⟨h.apps, hset.coupled h.contracts⟩
  | deleteContract _ hremove => exact ⟨h.apps, hremove.coupled h.contracts⟩

/-- What holds of the store as it was and behind every effect holds behind the operation. -/
theorem perform_keeps {P : Store → Prop} (h : store.Coupled) (op : Operation) (hsame : P store)
    (heffect : ∀ answer left, op.Admissible store → Effect store op answer left → P left) :
    P (store.perform op.action).2 := by
  have hobeyed := perform_effect h op
  rcases hresult : store.perform op.action with ⟨_ | answer, left⟩
  · rw [hresult] at hobeyed
    exact hobeyed.1 ▸ hsame
  · rw [hresult] at hobeyed
    exact heffect answer left hobeyed.1 hobeyed.2

theorem Coupled.perform (h : store.Coupled) (op : Operation) :
    (store.perform op.action).2.Coupled :=
  perform_keeps h op h fun _ _ _ heffect => heffect.coupled h

theorem Coupled.after (h : store.Coupled) (ops : List Operation) : (store.after ops).Coupled := by
  induction ops generalizing store with
  | nil => exact h
  | cons op ops ih => exact ih (h.perform op)

/-- Wherever a run of operations from the empty store has led, any operation either has its effect,
one record and its place, or it fails because it may not be carried out and nothing changes. -/
theorem perform_refines (ops : List Operation) (op : Operation) :
    match (Store.after {} ops).perform op.action with
    | (.error _, left) => left = Store.after {} ops ∧ ¬ op.Admissible (Store.after {} ops)
    | (.ok answer, left) =>
      op.Admissible (Store.after {} ops) ∧ Effect (Store.after {} ops) op answer left :=
  perform_effect (Coupled.empty.after ops) op

end Runs

end Store

end HttpContract
