import HttpContract.Constraint.Uuid
import HttpContract.Proofs.Store.Refinement

/-!
# Store — what holds of a store wherever a run has led

Each record of a store stands under its own identifier, and the versions of an app have labels of
their own and belong to the app (`WellFormed`). The empty store has this. It is kept by every
operation, whether it succeeds or not, if generated identifiers are universally unique ones and the
edits that callers bring touch the base path and the name only (`Operation.Careful`); so it holds
behind every run of such operations (`wellFormed_after`).
-/

namespace HttpContract

/-! ## Apps -/

/-- The versions of an app have labels, each its own, and belong to the app. -/
structure App.Orderly (app : App) : Prop where
  labelled : app.Labelled
  own : ∀ version ∈ app.versions, version.parent = some app.id

namespace App

variable {app : App}

theorem Labelled.adopt (h : app.Labelled) : app.adopt.Orderly where
  labelled := by
    have hlabels : app.adopt.labels = app.labels := by
      rw [labels, App.adopt, List.map_map]
      rfl
    exact ⟨hlabels ▸ h.named, hlabels ▸ h.nodup⟩
  own version hmem := by
    obtain ⟨old, -, rfl⟩ := List.mem_map.mp hmem
    rfl

theorem Orderly.rename (h : app.Orderly) (basePath name : String) :
    { app with basePath, name }.Orderly := ⟨⟨h.labelled.named, h.labelled.nodup⟩, h.own⟩

theorem Orderly.append (h : app.Orderly) {version : Version} (hnamed : version.label ≠ "")
    (hnew : version.label ∉ app.labels) (hown : version.parent = some app.id) :
    { app with versions := app.versions ++ [version] }.Orderly := by
  have hlabels : { app with versions := app.versions ++ [version] }.labels
      = app.labels ++ [version.label] := List.map_append
  refine ⟨⟨?_, ?_⟩, fun other hother => ?_⟩
  · rw [hlabels, List.mem_append, List.mem_singleton, not_or]
    exact ⟨h.labelled.named, hnamed.symm⟩
  · rw [hlabels]
    exact nodup_append_singleton.mpr ⟨hnew, h.labelled.nodup⟩
  · obtain hold | hlast := List.mem_append.mp hother
    · exact h.own other hold
    · exact List.mem_singleton.mp hlast ▸ hown

theorem Orderly.replace (h : app.Orderly) {first rest : List Version} {old version : Version}
    (hsplit : app.versions = first ++ old :: rest) (hlabel : old.label = version.label)
    (hown : version.parent = some app.id) :
    { app with versions := first ++ version :: rest }.Orderly := by
  have hlabels : { app with versions := first ++ version :: rest }.labels = app.labels := by
    rw [labels, labels, hsplit, List.map_append, List.map_append, List.map_cons, List.map_cons,
      hlabel]
  refine ⟨⟨hlabels ▸ h.labelled.named, hlabels ▸ h.labelled.nodup⟩, fun other hother => ?_⟩
  rw [List.mem_append, List.mem_cons, or_left_comm] at hother
  obtain rfl | hkept := hother
  · exact hown
  · refine h.own other ?_
    rw [hsplit, List.mem_append, List.mem_cons]
    exact hkept.imp_right .inr

theorem Orderly.filter (h : app.Orderly) (keep : Version → Bool) :
    { app with versions := app.versions.filter keep }.Orderly := by
  have hsub : { app with versions := app.versions.filter keep }.labels.Sublist app.labels :=
    List.filter_sublist.map _
  exact ⟨⟨fun hmem => h.labelled.named (hsub.subset hmem), h.labelled.nodup.sublist hsub⟩,
    fun version hmem => h.own version (List.mem_filter.mp hmem).1⟩

end App

namespace Store

/-! ## Stores -/

/-- Both tables keep order and records together, each record stands under its own identifier, no app
without one, and the versions of each app are in order. -/
structure WellFormed (store : Store) : Prop where
  coupled : store.Coupled
  appKey : ∀ key app, store.apps.find? key = some app → app.id = key
  contractKey : ∀ key c, store.contracts.find? key = some c → c.id = key
  named : "" ∉ store.apps.keys
  orderly : ∀ key app, store.apps.find? key = some app → app.Orderly

/-- An edit that touches the base path and the name of an app only. -/
def Edit.Renames (edit : Edit Unit) : Prop :=
  ∀ app edited, edit.on app = (.ok (), edited) →
    ∃ basePath name, edited = { app with basePath, name }

/-- What is asked of callers: generated identifiers are universally unique ones, and edits touch the
base path and the name only. -/
def Operation.Careful : Operation → Prop
  | createApp fresh _ => Constraint.Uuid.isUuid fresh = true
  | modifyApp _ edit => edit.Renames
  | _ => True

section Preservation

variable {store left : Store} {op : Operation} {answer : Answer}

theorem WellFormed.empty : WellFormed {} := by
  refine ⟨.empty, ?_, ?_, List.not_mem_nil, ?_⟩ <;>
    exact fun key record hfind => nomatch hfind

/-- An app is put under its identifier, whether there was one before or not. -/
theorem WellFormed.place (h : store.WellFormed) {id : String} {app : App} {apps : Table App}
    (hcoupled : apps.Coupled)
    (hrows : ∀ key, apps.find? key = if key = id then some app else store.apps.find? key)
    (hid : app.id = id) (hnamed : id ≠ "") (horderly : app.Orderly) :
    { store with apps }.WellFormed := by
  have hcases : ∀ key other, apps.find? key = some other →
      key = id ∧ other = app ∨ store.apps.find? key = some other := by
    intro key other hfind
    rw [hrows] at hfind
    by_cases hkey : key = id
    · rw [if_pos hkey, Option.some.injEq] at hfind
      exact .inl ⟨hkey, hfind.symm⟩
    · rw [if_neg hkey] at hfind
      exact .inr hfind
  refine ⟨⟨hcoupled, h.coupled.contracts⟩, fun key other hfind => ?_, h.contractKey, ?_,
    fun key other hfind => ?_⟩
  · obtain ⟨rfl, rfl⟩ | hold := hcases key other hfind
    · exact hid
    · exact h.appKey key other hold
  · rw [hcoupled.not_mem_iff, hrows, if_neg hnamed.symm, ← h.coupled.apps.not_mem_iff]
    exact h.named
  · obtain ⟨-, rfl⟩ | hold := hcases key other hfind
    · exact horderly
    · exact h.orderly key other hold

theorem WellFormed.placeContract (h : store.WellFormed) {c : Contract} {contracts : Table Contract}
    (hcoupled : contracts.Coupled)
    (hrows : ∀ key,
      contracts.find? key = if key = c.id then some c else store.contracts.find? key) :
    { store with contracts }.WellFormed := by
  refine ⟨⟨h.coupled.apps, hcoupled⟩, h.appKey, fun key other hfind => ?_, h.named, h.orderly⟩
  rw [hrows] at hfind
  by_cases hkey : key = c.id
  · rw [if_pos hkey, Option.some.injEq] at hfind
    exact hkey ▸ hfind ▸ rfl
  · rw [if_neg hkey] at hfind
    exact h.contractKey key other hfind

/-- An app takes the place of another one. -/
theorem WellFormed.replace (h : store.WellFormed) {id : String} {app : App} {apps : Table App}
    (hset : store.apps.Replaced id app apps) (hid : app.id = id) (horderly : app.Orderly) :
    { store with apps }.WellFormed :=
  h.place (hset.coupled h.coupled.apps) hset.rows hid
    (fun hempty => h.named (hempty ▸ hset.known)) horderly

theorem ne_of_isUuid {fresh : String} (h : Constraint.Uuid.isUuid fresh = true) : fresh ≠ "" := by
  rintro rfl
  exact absurd h (by decide)

/-- With a fresh identifier that is not empty, no app goes without one. -/
theorem complete_named {fresh : String} {app : App} (hfresh : fresh ≠ "") :
    (complete fresh app).id ≠ "" := by
  have hid : (complete fresh app).id = if app.id.isEmpty then fresh else app.id := by
    simp only [complete]
    split <;> split <;> rfl
  rw [hid]
  split
  case isTrue => exact hfresh
  case isFalse hempty => exact fun h => hempty (String.isEmpty_iff.mpr h)

theorem Effect.wellFormed (h : store.WellFormed) (hcareful : op.Careful)
    (hmay : op.Admissible store) (heffect : Effect store op answer left) : left.WellFormed := by
  cases heffect with
  | createApp hadd =>
    exact h.place (hadd.coupled h.coupled.apps) hadd.rows rfl
      (complete_named (ne_of_isUuid hcareful)) ((complete_labelled_iff _ _).mpr hmay.1).adopt
  | updateApp hset => exact h.replace hset rfl hmay.1.adopt
  | deleteApp _ hremove =>
    refine ⟨⟨hremove.coupled h.coupled.apps, h.coupled.contracts⟩, fun key app hfind => ?_,
      h.contractKey, fun hmem => ?_, fun key app hfind => ?_⟩
    · exact h.appKey key app (hremove.find?_before hfind)
    · obtain ⟨app, hfind⟩ := (hremove.coupled h.coupled.apps).mem_iff.mp hmem
      exact h.named (h.coupled.apps.mem_of_find? (hremove.find?_before hfind))
    · exact h.orderly key app (hremove.find?_before hfind)
  | modifyApp hold hedit hset =>
    have hid := h.appKey _ _ hold
    obtain ⟨basePath, name, rfl⟩ := hcareful _ _ hedit
    exact h.replace hset hid ((h.orderly _ _ hold).rename basePath name)
  | createVersion hold hnew hset =>
    have hid := h.appKey _ _ hold
    exact h.replace hset hid ((h.orderly _ _ hold).append hmay.1 hnew (congrArg some hid.symm))
  | updateVersion hold hsplit hlabel _ hset =>
    have hid := h.appKey _ _ hold
    exact h.replace hset hid
      ((h.orderly _ _ hold).replace hsplit hlabel (congrArg some hid.symm))
  | deleteVersion hold _ hset =>
    have hid := h.appKey _ _ hold
    exact h.replace hset hid ((h.orderly _ _ hold).filter _)
  | createContract hadd => exact h.placeContract (hadd.coupled h.coupled.contracts) hadd.rows
  | updateContract hset => exact h.placeContract (hset.coupled h.coupled.contracts) hset.rows
  | deleteContract _ hremove =>
    exact ⟨⟨h.coupled.apps, hremove.coupled h.coupled.contracts⟩, h.appKey,
      fun key c hfind => h.contractKey key c (hremove.find?_before hfind), h.named, h.orderly⟩

theorem WellFormed.perform (h : store.WellFormed) (hcareful : op.Careful) :
    (store.perform op.action).2.WellFormed :=
  perform_keeps h.coupled op h fun _ _ hmay heffect => heffect.wellFormed h hcareful hmay

theorem WellFormed.after (h : store.WellFormed) {ops : List Operation}
    (hcareful : ∀ op ∈ ops, op.Careful) : (store.after ops).WellFormed := by
  induction ops generalizing store with
  | nil => exact h
  | cons op ops ih =>
    exact ih (h.perform (hcareful op List.mem_cons_self))
      fun other hother => hcareful other (List.mem_cons_of_mem op hother)

end Preservation

/-- Behind every run of operations from the empty store, succeeding or failing: the order of each
table has no identifier twice and exactly those that are stored, each record stands under its own
identifier, no app without one, and within each app the labels are there and differ and the versions
belong to the app. -/
theorem wellFormed_after (ops : List Operation) (hcareful : ∀ op ∈ ops, op.Careful) :
    (Store.after {} ops).WellFormed := WellFormed.empty.after hcareful

/-- An app without an identifier, another one with a version, whose identifier is taken the second
time, and edits of its versions, some of which fail. -/
def editedShop : List Operation :=
  let fresh := "0b9d2c1e-8f47-4c3a-9d52-6f1e7a3b5c80"
  [.createApp fresh {},
    .createApp fresh { id := "shop", versions := [{ label := "1" }] },
    .createApp fresh { id := "shop" },
    .createVersion "shop" { label := "2", parent := some "elsewhere" },
    .createVersion "shop" { label := "2" },
    .createVersion "shop" { label := "" },
    .updateVersion "shop" { label := "1", template := some "/v1" },
    .updateApp { id := "shop", versions := [{ label := "3" }, { label := "3" }] },
    .modifyApp "shop" (modify fun app => { app with name := "Shop" }),
    .deleteVersion "shop" "3",
    .deleteApp fresh]

theorem wellFormed_after_editedShop :
    (∀ op ∈ editedShop, op.Careful)
      ∧ (Store.after {} editedShop).apps.entries =
        [("shop", { id := "shop", name := "Shop", versions :=
          [{ parent := some "shop", label := "1", template := some "/v1" },
            { parent := some "shop", label := "2" }] })]
      ∧ (Store.after {} editedShop).WellFormed := by
  have hcareful : ∀ op ∈ editedShop, op.Careful := by
    have hfresh : Constraint.Uuid.isUuid "0b9d2c1e-8f47-4c3a-9d52-6f1e7a3b5c80" = true := by decide
    have hrenames : Edit.Renames (modify fun app => { app with name := "Shop" }) := by
      rintro app edited h
      exact ⟨app.basePath, "Shop", (Prod.mk.inj h).2.symm⟩
    simp [editedShop, Operation.Careful, hfresh, hrenames]
  exact ⟨hcareful, by decide +kernel, wellFormed_after editedShop hcareful⟩

end Store

end HttpContract
