import HttpContract.Proofs.Store.Refinement
import HttpContract.Service.Traffic

/-!
# Service — no stub outlives its app

Apps are deleted in two steps, the second of which waits for its turn, while a stub is started by a
job that looks for the app, listens and records the stub in its turn. In whatever order the steps of
any number of jobs are taken, at most one stub runs for an app, and its app is there unless a job
has deleted the app and has yet to stop the stub. What a step can do to stubs, apps and its own job
is said once (`Job.Progress`); the invariant of a service with its jobs (`Orderly`) is kept by every
event (`Orderly.next`) and so holds at every point of a run (`stubs_owned`).
-/

namespace HttpContract

/-! ## Apps that stay -/

namespace Store

variable {store left : Store} {op : Operation} {answer : Answer} {id : String}

theorem found_eq_ok {α : Type} {what : Subject} {v : Option α} {a : α} :
    found what v = .ok a ↔ v = some a := by
  cases v <;> simp [found]

/-- Operations other than deletions of apps leave an app under every identifier that had one. -/
theorem Effect.knows (h : Effect store op answer left) (hop : ∀ key, op ≠ .deleteApp key)
    (hknown : ∃ app, store.apps.find? id = some app) : ∃ app, left.apps.find? id = some app := by
  have hwritten {key : String} {row : App} {apps : Table App}
      (hrows : ∀ other, apps.find? other = if other = key then some row
        else store.apps.find? other) : ∃ app, apps.find? id = some app := by
    rw [hrows]
    split
    · exact ⟨row, rfl⟩
    · exact hknown
  cases h with
  | createApp hadd => exact hwritten hadd.rows
  | updateApp hset => exact hwritten hset.rows
  | deleteApp _ _ => exact absurd rfl (hop _)
  | modifyApp _ _ hset => exact hwritten hset.rows
  | createVersion _ _ hset => exact hwritten hset.rows
  | updateVersion _ _ _ _ hset => exact hwritten hset.rows
  | deleteVersion _ _ hset => exact hwritten hset.rows
  | createContract _ => exact hknown
  | updateContract _ => exact hknown
  | deleteContract _ _ => exact hknown

theorem perform_knows (hcoupled : store.Coupled) (hop : ∀ key, op ≠ .deleteApp key)
    (hknown : ∃ app, store.apps.find? id = some app) :
    ∃ app, (store.perform op.action).2.apps.find? id = some app :=
  perform_keeps hcoupled op hknown fun _ _ _ heffect => heffect.knows hop hknown

end Store

/-! ## Where a job stands -/

/-- An app is stored under an identifier. -/
def Service.Knows (s : Service) (id : String) : Prop := ∃ app, s.store.apps.find? id = some app

/-- A stub runs for an app. -/
def Service.Serves (s : Service) (id : String) : Prop := ∃ stub, s.stubs.find? id = some stub

namespace Job

/-- The app for which a job has found no stub and has yet to record one. -/
def unserved? : Job → Option String
  | lookForApp id _ => some id
  | bind id _ => some id
  | record id _ => some id
  | _ => none

/-- The app that a job has found and for which it has yet to record a stub. -/
def starts? : Job → Option String
  | bind id _ => some id
  | record id _ => some id
  | _ => none

/-- The app that a job has deleted and whose stub it has yet to stop. -/
def orphans? : Job → Option String
  | stopStub id true => some id
  | removeStub id true => some id
  | _ => none

theorem unserved?_of_starts? {job : Job} {id : String} (h : job.starts? = some id) :
    job.unserved? = some id := by
  cases job with
  | bind _ _ => exact h
  | record _ _ => exact h
  | _ => exact nomatch h

theorem holdsTurn_of_unserved? {job : Job} {id : String} (h : job.unserved? = some id) :
    job.holdsTurn = true := by
  cases job with
  | lookForApp _ _ => rfl
  | bind _ _ => rfl
  | record _ _ => rfl
  | _ => exact nomatch h

/-! ## What a step can do -/

/-- What a step can do to the stubs, with the job before and behind it. -/
inductive Restubs (stubs stubs' : Table RunningStub) : Job → Job → Prop where
  | keep (job job' : Job) (h : stubs' = stubs) : Restubs stubs stubs' job job'
  | remove (id : String) (afterApp : Bool) (outcome : Outcome) (h : stubs' = stubs.erase id) :
      Restubs stubs stubs' (removeStub id afterApp) (release outcome)
  | record (id : String) (stub : RunningStub) (outcome : Outcome)
      (h : stubs' = stubs.add id stub) :
      Restubs stubs stubs' (record id stub) (release outcome)

/-- What a step can do: the service and the job before it, and both behind it. -/
structure Progress (s : Service) (job job' : Job) (s' : Service) : Prop where
  store : s'.store.Coupled
  turn : job'.holdsTurn = true → job.holdsTurn = true ∨ job.waits = true
  unserved : ∀ id, job'.unserved? = some id →
    job.unserved? = some id ∨ s.stubs.find? id = none
  starts : ∀ id, job'.starts? = some id → job.starts? = some id ∨ s.Knows id
  orphans : ∀ id, job.orphans? = some id →
    job'.orphans? = some id ∨ s'.stubs.find? id = none ∧ ∃ outcome, job' = release outcome
  stubs : Restubs s.stubs s'.stubs job job'
  apps : ∀ id, s.Knows id → s'.Knows id ∨ job'.orphans? = some id

variable {s : Service} {defaultHost : String} {binder : Binder}

theorem forall_of_none {α : Type} {o : Option α} {p : α → Prop} (h : o = none) :
    ∀ a, o = some a → p a := by
  intro a ha
  exact absurd (h.symm.trans ha) (Option.some_ne_none a).symm

/-- A step behind which its job starts no stub, of a job that has deleted no app. -/
theorem Progress.aside {s s' : Service} {job job' : Job} (hstore : s'.store.Coupled)
    (hturn : job'.holdsTurn = true → job.holdsTurn = true ∨ job.waits = true)
    (hunserved : job'.unserved? = none) (horphans : job.orphans? = none)
    (hstubs : Restubs s.stubs s'.stubs job job')
    (happs : ∀ id, s.Knows id → s'.Knows id ∨ job'.orphans? = some id) :
    Progress s job job' s' where
  store := hstore
  turn := hturn
  unserved := forall_of_none hunserved
  starts id hid := absurd (hunserved.symm.trans (unserved?_of_starts? hid))
    (Option.some_ne_none id).symm
  orphans := forall_of_none horphans
  stubs := hstubs
  apps := happs

/-- A job about the apps that is done in one step. -/
theorem progress_store (h : s.store.Coupled) (op : Store.Operation)
    (hop : ∀ key, op ≠ .deleteApp key) (job : Job) (hjob : job.orphans? = none)
    (outcome : Outcome) :
    Progress s job (finished outcome) { s with store := (s.store.perform op.action).2 } :=
  .aside (h.perform op) (fun hturn => absurd hturn Bool.false_ne_true) rfl hjob (.keep _ _ rfl)
    fun _ hknown => .inl (Store.perform_knows h hop hknown)

/-- The step that deletes an app leaves a job that has to stop its stub. -/
theorem progress_deleteApp (h : s.store.Coupled) (id : String) :
    Progress s (deleteApp id) (advance defaultHost binder s (deleteApp id)).1
      (advance defaultHost binder s (deleteApp id)).2 := by
  simp only [advance, onStore, Store.perform_deleteApp]
  cases hfind : s.store.apps.find? id with
  | none =>
    exact .aside h (fun hturn => absurd hturn Bool.false_ne_true) rfl rfl (.keep _ _ rfl)
      fun _ => .inl
  | some app =>
    have hremoved := h.apps.removed hfind
    refine .aside ⟨hremoved.coupled h.apps, h.contracts⟩
      (fun hturn => absurd hturn Bool.false_ne_true) rfl rfl (.keep _ _ rfl) ?_
    intro other hknown
    by_cases hother : other = id
    · exact .inr (congrArg some hother.symm)
    · refine .inl ?_
      rw [Service.Knows, hremoved.rows, if_neg hother]
      exact hknown

/-- What every step can do. -/
theorem advance_progress (h : s.store.Coupled) (job : Job) :
    Progress s job (advance defaultHost binder s job).1 (advance defaultHost binder s job).2 := by
  cases job with
  | createApp fresh app =>
    have hop : ∀ key, Store.Operation.createApp fresh app ≠ .deleteApp key := by
      rintro key ⟨⟩
    have hstep := progress_store h (.createApp fresh app) hop (createApp fresh app) rfl
      (.app (s.store.perform (Store.createApp fresh app)).1)
    rwa [Store.Operation.action, Store.perform_map s.store (Store.createApp fresh app) _] at hstep
  | updateApp app =>
    have hop : ∀ key, Store.Operation.updateApp app ≠ .deleteApp key := by
      rintro key ⟨⟩
    have hstep := progress_store h (.updateApp app) hop (updateApp app) rfl
      (.app (s.store.perform (Store.updateApp app)).1)
    rwa [Store.Operation.action, Store.perform_map s.store (Store.updateApp app) _] at hstep
  | deleteApp id => exact progress_deleteApp h id
  | stopStub id afterApp =>
    refine ⟨h, fun _ => .inr rfl, forall_of_none rfl, forall_of_none rfl, ?_, .keep _ _ rfl,
      fun _ => .inl⟩
    intro other horphan
    refine .inl ?_
    cases afterApp <;> exact horphan
  | removeStub id afterApp =>
    refine ⟨h, fun _ => .inl rfl, forall_of_none rfl, forall_of_none rfl, ?_,
      .remove _ _ _ rfl, fun _ => .inl⟩
    intro other horphan
    cases afterApp with
    | false => cases horphan
    | true =>
      obtain rfl : id = other := Option.some.inj horphan
      exact .inr ⟨by simp [advance], _, rfl⟩
  | startStub id request => exact .aside h (fun _ => .inr rfl) rfl rfl (.keep _ _ rfl) fun _ => .inl
  | lookForStub id request =>
    simp only [advance]
    split
    case h_1 stub hfind => exact .aside h (fun _ => .inl rfl) rfl rfl (.keep _ _ rfl) fun _ => .inl
    case h_2 hfind =>
      refine ⟨h, fun _ => .inl rfl, ?_, forall_of_none rfl, forall_of_none rfl, .keep _ _ rfl,
        fun _ => .inl⟩
      intro other hother
      rw [← Option.some.inj hother]
      exact .inr hfind
  | lookForApp id request =>
    simp only [advance]
    split
    case h_1 app hfound =>
      refine ⟨h, fun _ => .inl rfl, fun _ => .inl, ?_, forall_of_none rfl, .keep _ _ rfl,
        fun _ => .inl⟩
      intro other hother
      rw [← Option.some.inj hother]
      exact .inr ⟨app, Store.found_eq_ok.mp hfound⟩
    case h_2 => exact .aside h (fun _ => .inl rfl) rfl rfl (.keep _ _ rfl) fun _ => .inl
  | bind id request =>
    simp only [advance]
    split
    case h_1 place _ =>
      exact ⟨h, fun _ => .inl rfl, fun _ => .inl, fun _ => .inl, forall_of_none rfl,
        .keep _ _ rfl, fun _ => .inl⟩
    case h_2 => exact .aside h (fun _ => .inl rfl) rfl rfl (.keep _ _ rfl) fun _ => .inl
    case h_3 => exact .aside h (fun _ => .inl rfl) rfl rfl (.keep _ _ rfl) fun _ => .inl
  | record id stub => exact .aside h (fun _ => .inl rfl) rfl rfl (.record _ _ _ rfl) fun _ => .inl
  | release outcome =>
    exact .aside h (fun hturn => absurd hturn Bool.false_ne_true) rfl rfl (.keep _ _ rfl)
      fun _ => .inl
  | finished outcome =>
    exact .aside h (fun hturn => absurd hturn Bool.false_ne_true) rfl rfl (.keep _ _ rfl)
      fun _ => .inl

end Job

/-! ## The invariant -/

namespace Shift

variable {shift : Shift} {defaultHost : String} {binder : Binder}

/-- The app of a running stub, or of one that is being started, is there or has been deleted by a
job that has yet to stop the stub. -/
def Owned (shift : Shift) (id : String) : Prop :=
  shift.service.Knows id ∨ ∃ job ∈ shift.jobs, job.orphans? = some id

/-- The invariant of a service with its jobs. -/
structure Orderly (shift : Shift) : Prop where
  store : shift.service.store.Coupled
  stubs : shift.service.stubs.Coupled
  single : shift.service.stubs.Single
  turn : shift.jobs.countP Job.holdsTurn ≤ 1
  unserved : ∀ job ∈ shift.jobs, ∀ id, job.unserved? = some id →
    shift.service.stubs.find? id = none
  served : ∀ id, shift.service.Serves id → shift.Owned id
  starting : ∀ job ∈ shift.jobs, ∀ id, job.starts? = some id → shift.Owned id

theorem Orderly.start : start.Orderly where
  store := .empty
  stubs := .empty
  single := .nil
  turn := Nat.zero_le 1
  unserved := nofun
  served _ h := nomatch h
  starting := nofun

/-- At most one job has its turn. -/
theorem eq_of_holdsTurn {jobs : List Job} (h : jobs.countP Job.holdsTurn ≤ 1) {a b : Job}
    (ha : a ∈ jobs) (hb : b ∈ jobs) (haturn : a.holdsTurn = true) (hbturn : b.holdsTurn = true) :
    a = b := by
  rw [List.countP_eq_length_filter] at h
  have hamem := List.mem_filter.mpr ⟨ha, haturn⟩
  have hbmem := List.mem_filter.mpr ⟨hb, hbturn⟩
  match hfilter : jobs.filter Job.holdsTurn with
  | [] => simp [hfilter] at hamem
  | [only] =>
    rw [hfilter, List.mem_singleton] at hamem hbmem
    exact hamem.trans hbmem.symm
  | _ :: _ :: _ => simp [hfilter] at h

theorem mem_set_or {jobs : List Job} {i : Nat} {job : Job} (hi : jobs[i]? = some job) (job' : Job)
    {other : Job} (h : other ∈ jobs) : other ∈ jobs.set i job' ∨ other = job := by
  obtain ⟨j, hj⟩ := List.mem_iff_getElem?.mp h
  by_cases hij : i = j
  · subst hij
    exact .inr (Option.some.inj (hj.symm.trans hi))
  · exact .inl (List.mem_iff_getElem?.mpr ⟨j, by rw [List.getElem?_set_ne hij, hj]⟩)

/-- A job takes its turn only when no other one has it. -/
theorem countP_set_holdsTurn {i : Nat} {job job' : Job} (hi : shift.jobs[i]? = some job)
    (h : shift.jobs.countP Job.holdsTurn ≤ 1) (hready : shift.ready job = true)
    (hturn : job'.holdsTurn = true → job.holdsTurn = true ∨ job.waits = true) :
    (shift.jobs.set i job').countP Job.holdsTurn ≤ 1 := by
  obtain ⟨hlt, hget⟩ := List.getElem?_eq_some_iff.mp hi
  rw [List.countP_set hlt, hget]
  by_cases hholds' : job'.holdsTurn = true
  · rw [if_pos hholds']
    by_cases hholds : job.holdsTurn = true
    · rw [if_pos hholds]
      omega
    · -- the job has waited, so it is nobody's turn
      have hwaits := (hturn hholds').resolve_left hholds
      rw [ready, hwaits, Bool.not_true, Bool.false_or, List.all_eq_true] at hready
      have hnone : shift.jobs.countP Job.holdsTurn = 0 := by
        refine List.countP_eq_zero.mpr fun other hother => ?_
        simpa using hready other hother
      rw [hnone]
      omega
  · rw [if_neg hholds']
    omega

/-! ## A step of a job -/

section Turn

variable {i : Nat} {job job' : Job} {s' : Service} {id : String}

/-- A step of a job leaves an app owned, unless it has stopped the stub of the app. -/
theorem Owned.turned (h : shift.Owned id) (hi : shift.jobs[i]? = some job)
    (hstep : Job.Progress shift.service job job' s') :
    Owned ⟨s', shift.jobs.set i job'⟩ id
      ∨ s'.stubs.find? id = none ∧ ∃ outcome, job' = .release outcome := by
  have hmem' : job' ∈ shift.jobs.set i job' :=
    List.mem_set (List.getElem?_eq_some_iff.mp hi).1 job'
  rcases h with hknown | ⟨other, hother, horphan⟩
  · rcases hstep.apps id hknown with hknown' | horphan'
    · exact .inl (.inl hknown')
    · exact .inl (.inr ⟨job', hmem', horphan'⟩)
  · rcases mem_set_or hi job' hother with hkept | rfl
    · exact .inl (.inr ⟨other, hkept, horphan⟩)
    · rcases hstep.orphans id horphan with horphan' | hstopped
      · exact .inl (.inr ⟨job', hmem', horphan'⟩)
      · exact .inr hstopped

/-- A job that has found no stub behind a step has done so before it or in it. -/
theorem Orderly.unserved_before (h : shift.Orderly) (hi : shift.jobs[i]? = some job)
    (hstep : Job.Progress shift.service job job' s') {other : Job}
    (hother : other ∈ shift.jobs.set i job') (hid : other.unserved? = some id) :
    shift.service.stubs.find? id = none := by
  rcases List.mem_or_eq_of_mem_set hother with hold | rfl
  · exact h.unserved other hold id hid
  · rcases hstep.unserved id hid with hold | hfree
    · exact h.unserved job (List.mem_of_getElem? hi) id hold
    · exact hfree

/-- So has a job that has found an app. -/
theorem Orderly.starting_before (h : shift.Orderly) (hi : shift.jobs[i]? = some job)
    (hstep : Job.Progress shift.service job job' s') {other : Job}
    (hother : other ∈ shift.jobs.set i job') (hid : other.starts? = some id) :
    shift.Owned id := by
  rcases List.mem_or_eq_of_mem_set hother with hold | rfl
  · exact h.starting other hold id hid
  · rcases hstep.starts id hid with hold | hknown
    · exact h.starting job (List.mem_of_getElem? hi) id hold
    · exact .inl hknown

/-- While a job starts a stub, no other one has its turn to release. -/
theorem Orderly.not_release (h : shift.Orderly) (hi : shift.jobs[i]? = some job)
    (hready : shift.ready job = true) (hstep : Job.Progress shift.service job job' s')
    {other : Job} (hother : other ∈ shift.jobs.set i job') (hid : other.unserved? = some id)
    (outcome : Outcome) : job' ≠ .release outcome := by
  rintro rfl
  have hmem' : .release outcome ∈ shift.jobs.set i (.release outcome) :=
    List.mem_set (List.getElem?_eq_some_iff.mp hi).1 _
  have hturn := countP_set_holdsTurn hi h.turn hready hstep.turn
  have hsame := eq_of_holdsTurn hturn hother hmem' (Job.holdsTurn_of_unserved? hid) rfl
  rw [hsame] at hid
  exact nomatch hid

/-- The apps of stubs and of those that are being started are owned behind a step as before. -/
theorem Orderly.owned_turned (h : shift.Orderly) (hi : shift.jobs[i]? = some job)
    (hready : shift.ready job = true) (hstep : Job.Progress shift.service job job' s')
    (howned : shift.Owned id)
    (hid : s'.Serves id ∨ ∃ other ∈ shift.jobs.set i job', other.starts? = some id) :
    Owned ⟨s', shift.jobs.set i job'⟩ id := by
  refine (howned.turned hi hstep).resolve_right ?_
  rintro ⟨hnone, outcome, hrelease⟩
  rcases hid with ⟨stub, hstub⟩ | ⟨other, hother, hid⟩
  · exact nomatch hnone.symm.trans hstub
  · exact h.not_release hi hready hstep hother (Job.unserved?_of_starts? hid) outcome hrelease

/-- A step of a job keeps the invariant. -/
theorem Orderly.turned (h : shift.Orderly) (hi : shift.jobs[i]? = some job)
    (hready : shift.ready job = true) (hstep : Job.Progress shift.service job job' s') :
    Orderly ⟨s', shift.jobs.set i job'⟩ := by
  have hmem : job ∈ shift.jobs := List.mem_of_getElem? hi
  have hturn := countP_set_holdsTurn hi h.turn hready hstep.turn
  -- what was owned before the step still is, so apps are looked for in the state before it
  have hstarting : ∀ other ∈ shift.jobs.set i job', ∀ id, other.starts? = some id →
      Owned ⟨s', shift.jobs.set i job'⟩ id := fun other hother id hid =>
    h.owned_turned hi hready hstep (h.starting_before hi hstep hother hid)
      (.inr ⟨other, hother, hid⟩)
  have hserved : ∀ id, s'.Serves id → shift.Owned id →
      Owned ⟨s', shift.jobs.set i job'⟩ id := fun id hserves howned =>
    h.owned_turned hi hready hstep howned (.inl hserves)
  cases hstep.stubs with
  | keep _ _ hsame =>
    refine ⟨hstep.store, hsame ▸ h.stubs, hsame ▸ h.single, hturn, fun other hother id hid => ?_,
      fun id hserves => hserved id hserves (h.served id ?_), hstarting⟩
    · rw [hsame]
      exact h.unserved_before hi hstep hother hid
    · rwa [Service.Serves, hsame] at hserves
  | remove key afterApp outcome hsame =>
    refine ⟨hstep.store, hsame ▸ h.stubs.erase key, hsame ▸ h.single.erase key, hturn,
      fun other hother id hid => absurd rfl (h.not_release hi hready hstep hother hid outcome),
      fun id hserves => hserved id hserves (h.served id ?_), hstarting⟩
    obtain ⟨stub, hstub⟩ := hserves
    rw [hsame, Table.find?_erase] at hstub
    split at hstub
    · exact nomatch hstub
    · exact ⟨stub, hstub⟩
  | record key stub outcome hsame =>
    have hfree := h.unserved _ hmem key rfl
    refine ⟨hstep.store, hsame ▸ (h.stubs.added hfree stub).coupled h.stubs,
      hsame ▸ h.single.add hfree stub, hturn,
      fun other hother id hid => absurd rfl (h.not_release hi hready hstep hother hid outcome),
      fun id hserves => hserved id hserves ?_, hstarting⟩
    by_cases hid : id = key
    · subst hid
      exact h.starting _ hmem id rfl
    · obtain ⟨other, hother⟩ := hserves
      rw [hsame, Table.find?_add, if_neg hid] at hother
      exact h.served id ⟨other, hother⟩

end Turn

/-! ## Events -/

theorem Orderly.step (h : shift.Orderly) (i : Nat) :
    (shift.step defaultHost binder i).Orderly := by
  rw [Shift.step]
  cases hi : shift.jobs[i]? with
  | none => exact h
  | some job =>
    simp only
    by_cases hready : shift.ready job = true
    · rw [if_pos hready]
      exact h.turned hi hready (Job.advance_progress h.store job)
    · rw [if_neg hready]
      exact h

theorem Orderly.arrive (h : shift.Orderly) (task : Task) :
    Orderly { shift with jobs := shift.jobs ++ [task.job] } := by
  obtain ⟨hturn, hunserved, hstarts⟩ : task.job.holdsTurn = false ∧ task.job.unserved? = none
      ∧ task.job.starts? = none := by
    cases task <;> exact ⟨rfl, rfl, rfl⟩
  have howned {id : String} (howned : shift.Owned id) :
      Owned { shift with jobs := shift.jobs ++ [task.job] } id :=
    howned.imp_right fun ⟨job, hjob, horphan⟩ =>
      ⟨job, List.mem_append_left _ hjob, horphan⟩
  refine ⟨h.store, h.stubs, h.single, ?_, fun job hjob id hid => ?_,
    fun id hserves => howned (h.served id hserves), fun job hjob id hid => ?_⟩
  · simpa [List.countP_append, hturn] using h.turn
  · rcases List.mem_append.mp hjob with hold | hnew
    · exact h.unserved job hold id hid
    · rw [List.mem_singleton.mp hnew, hunserved] at hid
      exact nomatch hid
  · rcases List.mem_append.mp hjob with hold | hnew
    · exact howned (h.starting job hold id hid)
    · rw [List.mem_singleton.mp hnew, hstarts] at hid
      exact nomatch hid

theorem Orderly.edit (h : shift.Orderly) {op : Store.Operation} (hop : op.isEdit = true) :
    Orderly { shift with service := (Job.onStore shift.service op.action).2 } := by
  have hdelete : ∀ key, op ≠ .deleteApp key := by
    rintro key rfl
    exact nomatch hop
  have howned {id : String} (howned : shift.Owned id) :
      Owned { shift with service := (Job.onStore shift.service op.action).2 } id :=
    howned.imp_left (Store.perform_knows h.store hdelete)
  exact ⟨h.store.perform op, h.stubs, h.single, h.turn, h.unserved,
    fun id hserves => howned (h.served id hserves),
    fun job hjob id hid => howned (h.starting job hjob id hid)⟩

/-- Every event keeps the invariant. -/
theorem Orderly.next (h : shift.Orderly) (event : Event) :
    (shift.next defaultHost event).Orderly := by
  cases event with
  | arrive task => exact h.arrive task
  | turn place binder => exact h.step place
  | edit op => exact h.edit op.property

theorem Orderly.after (h : shift.Orderly) (events : List Event) :
    (shift.after defaultHost events).Orderly := by
  induction events generalizing shift with
  | nil => exact h
  | cons event events ih => exact ih (h.next event)

/-! ## Every point of a run -/

/-- Whatever has happened to a service, however the steps of its jobs were interleaved: at most one
stub runs for an app, and its app is there or has been deleted by a job that has yet to stop the
stub. So the app of every running stub is there whenever all jobs are finished. -/
theorem stubs_owned (defaultHost : String) (events : List Event) :
    let shift := start.after defaultHost events
    (shift.service.stubs.rows.map (·.1)).Nodup
    ∧ (∀ row ∈ shift.service.stubs.rows,
      shift.service.Knows row.1 ∨ ∃ job ∈ shift.jobs, job.orphans? = some row.1)
    ∧ ((∀ job ∈ shift.jobs, job.outcome?.isSome = true) →
      ∀ row ∈ shift.service.stubs.rows, shift.service.Knows row.1) := by
  intro shift
  have horderly : shift.Orderly := Orderly.start.after events
  have howned : ∀ row ∈ shift.service.stubs.rows, shift.Owned row.1 := by
    intro row hrow
    refine horderly.served row.1 ?_
    cases hfind : shift.service.stubs.find? row.1 with
    | some stub => exact ⟨stub, hfind⟩
    | none => exact absurd (List.mem_map_of_mem hrow) (Table.find?_eq_none_iff.mp hfind)
  refine ⟨horderly.single, howned, fun hfinished row hrow => ?_⟩
  refine (howned row hrow).resolve_right ?_
  rintro ⟨job, hjob, horphan⟩
  have hdone := hfinished job hjob
  cases job with
  | finished outcome => exact nomatch horphan
  | _ => exact nomatch hdone

/-- An app is created, and a job that starts its stub has found it and is about to listen. -/
def opening : List Event :=
  [.arrive (.createApp "" { id := "shop" }), .turn 0 fun _ _ => .ok 80,
    .arrive (.startStub "shop" {})] ++ List.replicate 3 (.turn 1 fun _ _ => .ok 80)

/-- The stub runs when all is done; if the app is deleted before the stub is recorded, it runs too,
until the job that deletes the app gets its turn. -/
theorem stubs_owned_opening :
    let calm := start.after "localhost" (opening ++ List.replicate 3 (.turn 1 fun _ _ => .ok 80))
    let raced := start.after "localhost" (opening ++ [.arrive (.deleteApp "shop"),
      .turn 2 fun _ _ => .ok 80] ++ List.replicate 3 (.turn 1 fun _ _ => .ok 80))
    calm.service.stubs.keys = ["shop"] ∧ calm.service.Knows "shop"
    ∧ raced.service.stubs.keys = ["shop"] ∧ raced.service.store.apps.keys = []
    ∧ ∃ job ∈ raced.jobs, job.orphans? = some "shop" := by
  intro calm raced
  have hcalm : ("shop", ⟨80, "localhost"⟩) ∈ calm.service.stubs.rows := by decide
  have hraced : ("shop", ⟨80, "localhost"⟩) ∈ raced.service.stubs.rows := by decide
  have hdeleted : raced.service.store.apps.find? "shop" = none := by decide
  refine ⟨by decide, (stubs_owned "localhost" _).2.2 (by decide) _ hcalm, by decide, by decide,
    ((stubs_owned "localhost" _).2.1 _ hraced).resolve_left ?_⟩
  rintro ⟨app, happ⟩
  exact nomatch hdeleted.symm.trans happ

end Shift

end HttpContract
