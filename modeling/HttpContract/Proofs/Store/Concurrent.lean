import HttpContract.Proofs.Store.Invariant
import HttpContract.Store.Call
import Mathlib.Data.List.Dedup

/-!
# Store — no edit of a version is lost

Calls about the versions of an app may take their steps in any order. Since each edit is one step,
what has become of the app is told by the calls whose edit has succeeded, in the order of the edits
(`Recorded`): how many versions have a label, what each version holds and how they stand. One more
call keeps this (`Recorded.append`), so that it holds at every point of a run (`run_recorded`).
-/

namespace HttpContract.Store

/-! ## Calls and operations -/

/-- What a call comes to as an operation: it fails if it cannot be prepared, and otherwise it is its
edit. -/
theorem perform_operation (store : Store) (id : String) (call : VersionCall) :
    store.perform (call.operation id).action =
      match call.prepare id with
      | .error e => (.error e, store)
      | .ok (edit, answer) =>
        ((store.perform (modifyApp id edit)).1.map fun _ => answer,
          (store.perform (modifyApp id edit)).2) := by
  have hmap {α β γ : Type} (r : Except StoreError α) (b : β) (f : β → γ) :
      (r.map fun _ => b).map f = r.map fun _ => f b := by
    cases r <;> rfl
  cases call with
  | create version =>
    rw [VersionCall.operation, Operation.action,
      perform_map store (createVersion id version) Answer.version, perform_createVersion]
    simp only [VersionCall.prepare]
    split
    · rfl
    · simp only [hmap]
  | update version =>
    rw [VersionCall.operation, Operation.action,
      perform_map store (updateVersion id version) Answer.version, perform_updateVersion]
    simp only [VersionCall.prepare, hmap]
  | delete label =>
    rw [VersionCall.operation, Operation.action,
      perform_map store (deleteVersion id label) fun _ => Answer.done, perform_deleteVersion]
    simp only [VersionCall.prepare, hmap]

theorem VersionCall.careful (call : VersionCall) (id : String) : (call.operation id).Careful := by
  cases call <;> exact trivial

/-! ## The record of an app -/

namespace VersionCall

/-- The version that a call brings: the one it was given, as one of the app. -/
def brings? (id : String) : VersionCall → Option Version
  | create version => some { version with parent := some id }
  | update version => some { version with parent := some id }
  | delete _ => none

/-- The label that a call adds. -/
def creates? : VersionCall → Option String
  | create version => some version.label
  | _ => none

/-- The label that a call takes away. -/
def deletes? : VersionCall → Option String
  | delete label => some label
  | _ => none

end VersionCall

/-- The versions that calls bring, in the order of the calls. -/
def brought (id : String) (calls : List VersionCall) : List Version :=
  calls.filterMap (·.brings? id)

/-- The labels that calls add. -/
def created (calls : List VersionCall) : List String := calls.filterMap (·.creates?)

/-- The labels that calls take away. -/
def deleted (calls : List VersionCall) : List String := calls.filterMap (·.deletes?)

/-- The version of a label that stands last. -/
def lastOf (label : String) (versions : List Version) : Option Version :=
  versions.reverse.find? fun version => version.label = label

theorem lastOf_append (label : String) (versions : List Version) (version : Version) :
    lastOf label (versions ++ [version])
      = if version.label = label then some version else lastOf label versions := by
  rw [lastOf, List.reverse_append, List.reverse_singleton, List.singleton_append, List.find?_cons]
  by_cases h : version.label = label <;> simp [h, lastOf]

/-- What is told about an app by what it was and by the calls whose edit has succeeded since, in the
order of the edits: each label is there as often as it was at first and was added, less how often it
was taken away; a version holds what was brought last under its label; and the labels stand in the
order in which they came, those that came again at their last place. -/
structure Recorded (id : String) (initial : App) (history : List VersionCall) (app : App) :
    Prop where
  count : ∀ label, initial.labels.count label + (created history).count label
    = app.labels.count label + (deleted history).count label
  content : ∀ version ∈ app.versions,
    lastOf version.label (initial.versions ++ brought id history) = some version
  order : app.labels.Sublist (initial.labels ++ created history).dedup

/-- A label that comes again leaves its earlier place. -/
theorem dedup_append_singleton (labels : List String) (label : String) :
    (labels ++ [label]).dedup = labels.dedup.filter (· ≠ label) ++ [label] := by
  induction labels with
  | nil => rfl
  | cons head rest ih =>
    rw [List.cons_append]
    by_cases hmem : head ∈ rest
    · rw [List.dedup_cons_of_mem (List.mem_append_left _ hmem), List.dedup_cons_of_mem hmem, ih]
    · rw [List.dedup_cons_of_notMem hmem]
      by_cases hhead : head = label
      · rw [List.dedup_cons_of_mem (by simp [hhead]), ih, List.filter_cons_of_neg (by simp [hhead])]
      · rw [List.dedup_cons_of_notMem (by simp [hmem, hhead]), ih,
          List.filter_cons_of_pos (by simp [hhead]), List.cons_append]

/-! ## Calls that succeed -/

section Recorded

variable {id : String} {initial app : App} {history : List VersionCall}

/-- Versions of different labels are found by their labels, from whichever end. -/
theorem lastOf_of_mem {versions : List Version} (hnodup : (versions.map (·.label)).Nodup)
    {version : Version} (hmem : version ∈ versions) :
    lastOf version.label versions = some version := by
  cases hfind : lastOf version.label versions with
  | none =>
    have hnone := List.find?_eq_none.mp hfind version (List.mem_reverse.mpr hmem)
    exact absurd (decide_eq_true rfl) hnone
  | some other =>
    have hother : other ∈ versions := List.mem_reverse.mp (List.mem_of_find?_eq_some hfind)
    have hlabel : other.label = version.label := by simpa using List.find?_some hfind
    rw [List.inj_on_of_nodup_map hnodup hother hmem hlabel]

theorem Recorded.start (hnodup : initial.labels.Nodup) : Recorded id initial [] initial where
  count _ := rfl
  content version hmem := by
    rw [show brought id [] = [] from rfl, List.append_nil]
    exact lastOf_of_mem hnodup hmem
  order := by
    rw [show created [] = [] from rfl, List.append_nil, List.dedup_eq_self.mpr hnodup]

theorem filterMap_append_singleton {α β : Type} (f : α → Option β) (l : List α) (a : α) :
    (l ++ [a]).filterMap f = l.filterMap f ++ (f a).toList := by
  rw [List.filterMap_append]
  cases hf : f a <;> simp [hf]

/-- One more call keeps the record if it leaves labels where they stand, adds new ones at the end,
takes away what it deletes, and leaves versions of other labels as they are. -/
theorem Recorded.extend (h : Recorded id initial history app) {call : VersionCall} {edited : App}
    {kept : List String} (hkept : kept.Sublist app.labels)
    (hlabels : edited.labels = kept ++ call.creates?.toList)
    (hnew : ∀ label ∈ call.creates?, label ∉ app.labels)
    (hcount : ∀ label,
      app.labels.count label = kept.count label + call.deletes?.toList.count label)
    (hcontent : ∀ version ∈ edited.versions, call.brings? id = some version
      ∨ version ∈ app.versions ∧ ∀ new ∈ call.brings? id, new.label ≠ version.label) :
    Recorded id initial (history ++ [call]) edited where
  count label := by
    have hbefore := h.count label
    have hcall := hcount label
    rw [hlabels, created, deleted, filterMap_append_singleton, filterMap_append_singleton,
      List.count_append, List.count_append, List.count_append]
    simp only [created, deleted] at hbefore
    omega
  content version hmem := by
    have hbrought : brought id (history ++ [call])
        = brought id history ++ (call.brings? id).toList := filterMap_append_singleton _ _ _
    rw [hbrought, ← List.append_assoc]
    obtain hbrings | ⟨hold, hother⟩ := hcontent version hmem
    · rw [hbrings, Option.toList_some, lastOf_append, if_pos rfl]
    · cases hbrings : call.brings? id with
      | none => rw [Option.toList_none, List.append_nil, h.content version hold]
      | some new =>
        rw [Option.toList_some, lastOf_append, if_neg (hother new hbrings),
          h.content version hold]
  order := by
    have hcreated : created (history ++ [call]) = created history ++ call.creates?.toList :=
      filterMap_append_singleton _ _ _
    rw [hlabels, hcreated, ← List.append_assoc]
    cases hcreates : call.creates? with
    | none =>
      rw [Option.toList_none, List.append_nil, List.append_nil]
      exact hkept.trans h.order
    | some label =>
      -- the label is new, so that what stood at its earlier place is not one of those kept
      have hothers := (hkept.trans h.order).filter (· ≠ label)
      rw [List.filter_eq_self.mpr fun other hmem => decide_eq_true ?_] at hothers
      · rw [Option.toList_some, dedup_append_singleton]
        exact hothers.append (.refl _)
      · rintro rfl
        exact hnew other hcreates (hkept.subset hmem)

theorem Recorded.create (h : Recorded id initial history app) {version : Version}
    (hnew : version.label ∉ app.labels) :
    Recorded id initial (history ++ [.create version])
      { app with versions := app.versions ++ [{ version with parent := some id }] } := by
  refine h.extend (.refl _) List.map_append ?_ (fun _ => rfl) fun other hmem => ?_
  · rintro label ⟨⟩
    exact hnew
  · obtain hold | hlast := List.mem_append.mp hmem
    · refine .inr ⟨hold, ?_⟩
      rintro new ⟨⟩ hlabel
      exact hnew (List.mem_map.mpr ⟨other, hold, hlabel.symm⟩)
    · exact .inl (congrArg some (List.mem_singleton.mp hlast).symm)

theorem Recorded.update (h : Recorded id initial history app) (hnodup : app.labels.Nodup)
    {version replaced : Version} {first rest : List Version}
    (hsplit : app.versions = first ++ replaced :: rest) (hlabel : replaced.label = version.label) :
    Recorded id initial (history ++ [.update version])
      { app with versions := first ++ { version with parent := some id } :: rest } := by
  have hlabels : App.labels { app with
      versions := first ++ { version with parent := some id } :: rest } = app.labels := by
    rw [App.labels, App.labels, hsplit, List.map_append, List.map_append, List.map_cons,
      List.map_cons, hlabel]
  -- the other versions have other labels
  have hothers : ∀ other, other ∈ first ∨ other ∈ rest →
      other ∈ app.versions ∧ version.label ≠ other.label := by
    rw [App.labels, hsplit, List.map_append, List.map_cons, List.nodup_middle, List.nodup_cons,
      ← List.map_append, List.mem_map, hlabel] at hnodup
    intro other hother
    rw [hsplit, List.mem_append, List.mem_cons]
    exact ⟨hother.imp_right .inr,
      fun heq => hnodup.1 ⟨other, List.mem_append.mpr hother, heq.symm⟩⟩
  refine h.extend (.refl _) (hlabels.trans (List.append_nil _).symm) (by rintro _ ⟨⟩)
    (fun _ => rfl) fun other hmem => ?_
  rw [List.mem_append, List.mem_cons, or_left_comm] at hmem
  obtain rfl | hother := hmem
  · exact .inl rfl
  · refine .inr ⟨(hothers other hother).1, ?_⟩
    rintro new ⟨⟩
    exact (hothers other hother).2

theorem Recorded.delete (h : Recorded id initial history app) (hnodup : app.labels.Nodup)
    {label : String} (hmem : label ∈ app.labels) :
    Recorded id initial (history ++ [.delete label])
      { app with versions := app.versions.filter fun version => version.label ≠ label } := by
  have hlabels : App.labels { app with
      versions := app.versions.filter fun version => version.label ≠ label }
        = app.labels.filter (· ≠ label) := by
    rw [App.labels, App.labels, List.filter_map]
    rfl
  have hcount : ∀ other, app.labels.count other
      = (app.labels.filter (· ≠ label)).count other + [label].count other := by
    intro other
    by_cases hother : other = label
    · subst hother
      have hgone : other ∉ app.labels.filter (· ≠ other) := by simp
      rw [List.count_eq_one_of_mem hnodup hmem, List.count_eq_zero_of_not_mem hgone,
        List.count_singleton_self]
    · have hnot : other ∉ [label] := by simpa using hother
      rw [List.count_filter (by simpa using hother), List.count_eq_zero_of_not_mem hnot,
        Nat.add_zero]
  exact h.extend List.filter_sublist (hlabels.trans (List.append_nil _).symm) (by rintro _ ⟨⟩)
    hcount fun version hversion => .inr ⟨(List.mem_filter.mp hversion).1, by rintro _ ⟨⟩⟩

/-- What a call that succeeds makes of the app is told by the record with the call at its end. -/
theorem Recorded.append {store left : Store} {call : VersionCall} {answer : Answer}
    (h : Recorded id initial history app) (hstore : store.WellFormed)
    (hfind : store.apps.find? id = some app)
    (heffect : Effect store (call.operation id) answer left) :
    ∃ edited, left.apps.find? id = some edited
      ∧ Recorded id initial (history ++ [call]) edited := by
  have hnodup := (hstore.orderly id app hfind).labelled.nodup
  have hlookup {apps : Table App} {edited : App} (hset : store.apps.Replaced id edited apps) :
      apps.find? id = some edited := by
    rw [hset.rows, if_pos rfl]
  cases call with
  | create version =>
    cases heffect with
    | createVersion hold hnew hset =>
      obtain rfl := Option.some.inj (hfind.symm.trans hold)
      exact ⟨_, hlookup hset, h.create hnew⟩
  | update version =>
    cases heffect with
    | updateVersion hold hsplit hlabel _ hset =>
      obtain rfl := Option.some.inj (hfind.symm.trans hold)
      exact ⟨_, hlookup hset, h.update hnodup hsplit hlabel⟩
  | delete label =>
    cases heffect with
    | deleteVersion hold hlabel hset =>
      obtain rfl := Option.some.inj (hfind.symm.trans hold)
      exact ⟨_, hlookup hset, h.delete hnodup hlabel⟩

end Recorded

/-! ## Side by side -/

/-- What holds at every point of a run: the store is well-formed, the app is there and is what its
record tells, the record has the calls that have succeeded, and an edit that is about to be made is
that of its call. -/
structure Traffic.Kept (id : String) (initial : App) (t : Traffic) : Prop where
  wellFormed : t.store.WellFormed
  recorded : ∃ app, t.store.apps.find? id = some app ∧ Recorded id initial t.history app
  succeeded : t.history.Perm t.succeeded
  prepared : ∀ client ∈ t.clients, ∀ edit answer, client.phase = .prepared edit answer →
    client.call.prepare id = .ok (edit, answer)

section Run

variable {id : String} {initial : App} {t : Traffic} {place : Nat} {client next : Client}

theorem Traffic.step_eq {left : Store} (hclient : t.clients[place]? = some client)
    (hadvance : client.advance id t.store = (next, left)) :
    t.step id place = ⟨left, t.clients.set place next,
      if next.succeeded && !client.succeeded then t.history ++ [client.call] else t.history⟩ := by
  simp only [Traffic.step, hclient, hadvance]

/-- A step that makes no edit keeps what the record tells. -/
theorem Traffic.Kept.goto (h : t.Kept id initial) (hclient : t.clients[place]? = some client)
    (hadvance : client.advance id t.store = (next, t.store)) (hcall : next.call = client.call)
    (hsame : next.succeeded = client.succeeded)
    (hprepared : ∀ edit answer, next.phase = .prepared edit answer →
      next.call.prepare id = .ok (edit, answer)) :
    (t.step id place).Kept id initial := by
  rw [Traffic.step_eq hclient hadvance, hsame, Bool.and_not_self, if_neg Bool.false_ne_true]
  obtain ⟨before, rest, hsplit, hset⟩ := split_at hclient
  refine ⟨h.wellFormed, h.recorded, ?_, fun other hother edit answer hphase => ?_⟩
  · have hsucceeded : Traffic.succeeded ⟨t.store, t.clients.set place next, t.history⟩
        = t.succeeded := by
      simp only [Traffic.succeeded, hset]
      simp only [hsplit, List.filter_append, List.filter_cons, hsame]
      split <;> simp [hcall]
    rw [hsucceeded]
    exact h.succeeded
  · obtain hold | rfl := List.mem_or_eq_of_mem_set hother
    · exact h.prepared other hold edit answer hphase
    · exact hprepared edit answer hphase

/-- The call of an edit that succeeds goes to the end of the record. -/
theorem Traffic.Kept.success (h : t.Kept id initial) (hclient : t.clients[place]? = some client)
    {left : Store} {edited : App} (hadvance : client.advance id t.store = (next, left))
    (hcall : next.call = client.call) (hnew : client.succeeded = false)
    (hdone : next.succeeded = true) (hprepared : ∀ edit answer, next.phase ≠ .prepared edit answer)
    (hleft : left.WellFormed) (hfind : left.apps.find? id = some edited)
    (hrecorded : Recorded id initial (t.history ++ [client.call]) edited) :
    (t.step id place).Kept id initial := by
  rw [Traffic.step_eq hclient hadvance, hnew, hdone, if_pos (show (true && !false) = true from rfl)]
  obtain ⟨before, rest, hsplit, hset⟩ := split_at hclient
  refine ⟨hleft, ⟨edited, hfind, hrecorded⟩, ?_, fun other hother edit answer hphase => ?_⟩
  · have hold := h.succeeded
    simp only [Traffic.succeeded, hset] at hold ⊢
    simp only [hsplit, List.filter_append, List.filter_cons, hnew, hdone, if_true,
      Bool.false_eq_true, if_false, List.map_append, List.map_cons, hcall] at hold ⊢
    exact (List.perm_append_singleton _ _).trans ((hold.cons _).trans List.perm_middle.symm)
  · obtain hold | rfl := List.mem_or_eq_of_mem_set hother
    · exact h.prepared other hold edit answer hphase
    · exact absurd hphase (hprepared edit answer)

/-- A step of any client keeps what the record tells. -/
theorem Traffic.Kept.step (h : t.Kept id initial) (place : Nat) :
    (t.step id place).Kept id initial := by
  cases hclient : t.clients[place]? with
  | none => rwa [Traffic.step, hclient]
  | some client =>
    obtain ⟨call, phase⟩ := client
    cases phase with
    | called =>
      rcases hprepare : call.prepare id with e | ⟨edit, answer⟩
      · have hadvance : Client.advance id t.store ⟨call, .called⟩
            = (⟨call, .returned (.error e)⟩, t.store) := by
          simp only [Client.advance, hprepare]
        exact h.goto hclient hadvance rfl rfl fun _ _ hphase => nomatch hphase
      · have hadvance : Client.advance id t.store ⟨call, .called⟩
            = (⟨call, .prepared edit answer⟩, t.store) := by
          simp only [Client.advance, hprepare]
        refine h.goto hclient hadvance rfl rfl fun _ _ hphase => ?_
        obtain ⟨rfl, rfl⟩ := Phase.prepared.inj hphase
        exact hprepare
    | prepared edit answer =>
      have hprepare := h.prepared _ (List.mem_of_getElem? hclient) edit answer rfl
      have hadvance : Client.advance id t.store ⟨call, .prepared edit answer⟩
          = (⟨call, .edited (t.store.perform (call.operation id).action).1⟩,
            (t.store.perform (call.operation id).action).2) := by
        rw [perform_operation, hprepare]
        rfl
      have hobeyed := perform_effect h.wellFormed.coupled (call.operation id)
      have hleft := h.wellFormed.perform (call.careful id)
      rcases hresult : t.store.perform (call.operation id).action with ⟨e | answer, left⟩
      · rw [hresult] at hobeyed hadvance
        rw [hobeyed.1] at hadvance
        exact h.goto hclient hadvance rfl rfl fun _ _ hphase => nomatch hphase
      · rw [hresult] at hobeyed hadvance hleft
        obtain ⟨app, hfind, hrecorded⟩ := h.recorded
        obtain ⟨edited, hedited, hnew⟩ := hrecorded.append h.wellFormed hfind hobeyed.2
        exact h.success hclient hadvance rfl rfl rfl (fun _ _ hphase => nomatch hphase) hleft
          hedited hnew
    | edited outcome =>
      refine h.goto hclient rfl rfl ?_ fun _ _ hphase => nomatch hphase
      cases outcome <;> rfl
    | returned outcome => exact h.goto hclient rfl rfl rfl fun _ _ hphase => nomatch hphase

theorem Traffic.Kept.run (h : t.Kept id initial) (schedule : List Nat) :
    (t.run id schedule).Kept id initial := by
  induction schedule generalizing t with
  | nil => exact h
  | cons place schedule ih => exact ih (h.step place)

theorem Traffic.Kept.start {store : Store} {app : App} (h : store.WellFormed)
    (hfind : store.apps.find? id = some app) (calls : List VersionCall) :
    (Traffic.start store calls).Kept id app := by
  have hcalled : ∀ client ∈ (Traffic.start store calls).clients, client.phase = .called := by
    intro client hmem
    obtain ⟨call, -, rfl⟩ := List.mem_map.mp hmem
    rfl
  refine ⟨h, ⟨app, hfind, .start (h.orderly id app hfind).labelled.nodup⟩, ?_,
    fun client hmem edit answer hphase => ?_⟩
  · rw [Traffic.succeeded, List.filter_eq_nil_iff.mpr fun client hmem => ?_]
    · exact .refl _
    · rw [Client.succeeded, hcalled client hmem]
      exact Bool.false_ne_true
  · rw [hcalled client hmem] at hphase
    exact nomatch hphase

/-- Calls about the versions of an app, of any clients and in any interleaving: at every point of
the run the app is there; of each label there are as many versions as there were at first, with the
successful creations and without the successful deletions of it, which is none or one; a version
holds what the last successful call brought under its label, if not what it held at first, and
belongs to the app; and the labels stand in the order of their first position or of their last
successful creation. -/
theorem run_recorded {store : Store} {id : String} {app : App} (h : store.WellFormed)
    (hfind : store.apps.find? id = some app) (calls : List VersionCall) (schedule : List Nat) :
    let t := (Traffic.start store calls).run id schedule
    ∃ left, t.store.apps.find? id = some left ∧ t.history.Perm t.succeeded
      ∧ (∀ label, (app.labels.count label : Int) + (created t.succeeded).count label
          - (deleted t.succeeded).count label = left.labels.count label
        ∧ (left.labels.count label = 0 ∨ left.labels.count label = 1))
      ∧ (∀ version ∈ left.versions, version.parent = some id
        ∧ lastOf version.label (app.versions ++ brought id t.history) = some version)
      ∧ left.labels.Sublist (app.labels ++ created t.history).dedup := by
  have hkept := (Traffic.Kept.start h hfind calls).run schedule
  obtain ⟨left, hleft, hrecorded⟩ := hkept.recorded
  have horderly := hkept.wellFormed.orderly id left hleft
  refine ⟨left, hleft, hkept.succeeded, fun label => ⟨?_, ?_⟩, fun version hmem => ⟨?_, ?_⟩,
    hrecorded.order⟩
  · have hcreated := ((hkept.succeeded.filterMap (·.creates?)).count_eq label)
    have hdeleted := ((hkept.succeeded.filterMap (·.deletes?)).count_eq label)
    have hcount := hrecorded.count label
    simp only [created, deleted] at hcount ⊢
    omega
  · have hone := List.nodup_iff_count_le_one.mp horderly.labelled.nodup label
    omega
  · rw [horderly.own version hmem, hkept.wellFormed.appKey id left hleft]
  · exact hrecorded.content version hmem

end Run

/-- An app with two versions. -/
def twoVersions : App :=
  { id := "shop", name := "Shop", versions :=
      [{ parent := some "shop", label := "1" }, { parent := some "shop", label := "2" }] }

/-- Two clients bring the same new version, one changes a version, and one deletes a version that
another one brings again. -/
def rivals : List VersionCall :=
  [.create { label := "3", template := some "/first" },
    .create { label := "3", template := some "/second" },
    .update { label := "1", template := some "/v1" }, .delete "2", .create { label := "2" }]

/-- A store with this app. -/
def storeOfTwo : Store :=
  Store.after {} [.createApp "0b9d2c1e-8f47-4c3a-9d52-6f1e7a3b5c80" twoVersions]

/-- The second client makes its edit before the first one, which was prepared earlier. -/
def rivalry : Traffic :=
  (Traffic.start storeOfTwo rivals).run "shop" [0, 1, 2, 3, 4, 1, 0, 3, 4, 2, 0, 1, 2, 3, 4]

theorem run_recorded_rivals :
    storeOfTwo.WellFormed ∧ storeOfTwo.apps.find? "shop" = some twoVersions
      ∧ rivalry.clients.map (·.succeeded) = [false, true, true, true, true]
      ∧ ∃ left, rivalry.store.apps.find? "shop" = some left ∧ left.labels = ["1", "3", "2"]
        ∧ rivalry.history.Perm rivalry.succeeded
        ∧ left.labels.Sublist (twoVersions.labels ++ created rivalry.history).dedup := by
  have hcareful : ∀ op ∈ [Operation.createApp "0b9d2c1e-8f47-4c3a-9d52-6f1e7a3b5c80" twoVersions],
      op.Careful := by
    intro op hop
    rw [List.mem_singleton.mp hop]
    exact (by decide : Constraint.Uuid.isUuid "0b9d2c1e-8f47-4c3a-9d52-6f1e7a3b5c80" = true)
  have hstore : storeOfTwo.WellFormed := WellFormed.empty.after hcareful
  have hfind : storeOfTwo.apps.find? "shop" = some twoVersions := by decide +kernel
  have hlabels : (rivalry.store.apps.find? "shop").map (·.labels) = some ["1", "3", "2"] := by
    decide +kernel
  obtain ⟨left, hleft, hhistory, -, -, horder⟩ := run_recorded hstore hfind rivals
    [0, 1, 2, 3, 4, 1, 0, 3, 4, 2, 0, 1, 2, 3, 4]
  rw [rivalry, hleft, Option.map_some, Option.some.injEq] at hlabels
  exact ⟨hstore, hfind, by decide +kernel, left, hleft, hlabels, hhistory, horder⟩

end HttpContract.Store
