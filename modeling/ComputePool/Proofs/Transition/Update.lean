import ComputePool.Proofs.Transition.Due
import ComputePool.Proofs.Workers

/-!
# What an update does

`attempt_updateTask`: an update never fails. It does nothing unless a move of the task is due
(`Pool.due?`); if one is, it leaves the pool `Pool.advanced`.

That pool is told through the look-ups, each after one move of a task `t` to a status `s`:

* `task?_advanced`: the task itself moved, no other changed;
* `list?_advanced`: its list is the one after the move, no other changed;
* `worker?_advanced`: if the status frees workers, those with a replicate of the task hold no
  computing slot for it any more; nothing else changed about any worker;
* `advanced_eq`: the rest of the pool is as before, up to the draw.
-/

namespace ComputePool

namespace Pool

variable (p : Pool)

/-! ## Freeing workers -/

/-- Freeing workers one by one touches the registry alone. -/
theorem releaseAll_eq (id : String) (rs : List Replicate) :
    (p.perform (releaseAll id rs)).2 =
      { p with registry := (p.perform (releaseAll id rs)).2.registry } := by
  induction rs generalizing p with
  | nil => rfl
  | cons r rest ih =>
    have hstep : (p.endWork r.wallet id).2 =
        { p with registry := (p.endWork r.wallet id).2.registry } := writeRegistry_snd _ p
    show ((p.endWork r.wallet id).2.perform (releaseAll id rest)).2 =
      { p with registry := ((p.endWork r.wallet id).2.perform (releaseAll id rest)).2.registry }
    rw [ih (p.endWork r.wallet id).2, hstep]

/-- Each of the participants gives back its slot, and nobody else does. -/
theorem worker?_releaseAll (id : String) (rs : List Replicate) (wallet : String) :
    (p.perform (releaseAll id rs)).2.registry.worker? wallet =
      if wallet ∈ rs.map (·.wallet) then (p.registry.worker? wallet).map (·.releaseTask id)
      else p.registry.worker? wallet := by
  induction rs generalizing p with
  | nil => rfl
  | cons r rest ih =>
    show ((p.endWork r.wallet id).2.perform (releaseAll id rest)).2.registry.worker? wallet = _
    rw [ih, worker?_endWork, List.map_cons]
    by_cases hr : r.wallet = wallet
    · -- freed here, and perhaps once more by the rest
      rw [if_pos hr, if_pos (List.mem_cons.2 (.inl hr.symm)), Option.map_map]
      split
      · congr 1
        funext w
        exact w.releaseTask_releaseTask id
      · rfl
    · rw [if_neg hr]
      exact if_congr (by simp [Ne.symm hr]) rfl rfl

/-- The participants of a task are freed. -/
theorem worker?_releaseWorkers (id wallet : String) :
    (p.perform (releaseWorkers id)).2.registry.worker? wallet =
      if (p.store.list? id).any (·.hasWorker wallet) then
        (p.registry.worker? wallet).map (·.releaseTask id)
      else p.registry.worker? wallet := by
  unfold releaseWorkers
  rw [perform_bind, perform_getList]
  cases p.store.list? id with
  | none => rfl
  | some l =>
    show (p.perform (releaseAll id l.replicates)).2.registry.worker? wallet = _
    rw [worker?_releaseAll, Option.any_some]
    exact if_congr ReplicateList.hasWorker_iff.symm rfl rfl

/-- To release workers is to write to the registry alone. -/
theorem releaseWorkers_eq (id : String) :
    (p.perform (releaseWorkers id)).2 =
      { p with registry := (p.perform (releaseWorkers id)).2.registry } := by
  unfold releaseWorkers
  rw [perform_bind, perform_getList]
  cases p.store.list? id with
  | none => rfl
  | some l => exact p.releaseAll_eq id l.replicates

/-! ## One move -/

/-- The pool once the move of a task is saved, before its workers are freed. -/
def recorded (status : TaskStatus) (t : Task) : Pool :=
  ((p.prepared status t).saveTask ((p.outlook t.chainTaskId).moved status t)).2

/-- The pool once a task moved to a status. -/
def advanced (status : TaskStatus) (t : Task) : Pool :=
  if status.freesWorkers then
    ((p.recorded status t).perform (releaseWorkers t.chainTaskId)).2
  else p.recorded status t

/-- The task of an id and the status to which it moves, if it does. -/
def due? (id : String) : Option (Task × TaskStatus) :=
  (p.store.task? id).bind fun t => ((p.outlook id).next t).map (t, ·)

variable {p} {t : Task} (status : TaskStatus)

/-- A move is due of a task that is stored and for which the outlook has one. -/
theorem due?_eq_some {id : String} {status : TaskStatus} :
    p.due? id = some (t, status) ↔
      p.store.task? id = some t ∧ (p.outlook id).next t = some status := by
  unfold due?
  rw [Option.bind_eq_some_iff]
  simp only [Option.map_eq_some_iff, Prod.mk.injEq]
  constructor
  · rintro ⟨t', ht', s, hs, rfl, rfl⟩
    exact ⟨ht', hs⟩
  · rintro ⟨ht, hs⟩
    exact ⟨t, ht, status, hs, rfl, rfl⟩

/-- Before it is saved the move changes no task. -/
theorem tasks_prepared : (p.prepared status t).store.tasks = p.store.tasks := by
  unfold prepared
  split
  · exact p.createList_tasks _
  · cases (p.outlook t.chainTaskId).asked? t with
    | none => rfl
    | some wallet => exact p.store.tasks_updateReplicate ..
  · rfl

/-- The list is made ready for the move, and no other list is touched. -/
theorem list?_prepared (t : Task) (id : String) :
    (p.prepared status t).store.list? id =
      if t.chainTaskId = id then (p.outlook t.chainTaskId).listAfter status t
      else p.store.list? id := by
  have hsame : p.store.list? id =
      if t.chainTaskId = id then (p.outlook t.chainTaskId).list else p.store.list? id := by
    by_cases hid : t.chainTaskId = id
    · rw [if_pos hid, ← hid]
      rfl
    · rw [if_neg hid]
  unfold prepared Outlook.listAfter
  -- two moves touch the list; the others leave it
  cases status with
  | initialized =>
    refine (p.createList_list? t.chainTaskId id).trans ?_
    by_cases hid : t.chainTaskId = id
    · rw [if_pos hid, if_pos hid, ← hid]
      rfl
    · rw [if_neg hid, if_neg hid]
  | resultUploadRequested =>
    dsimp only
    cases (p.outlook t.chainTaskId).asked? t with
    | none => exact hsame
    | some wallet =>
      refine (p.store.list?_updateReplicate ..).trans ?_
      by_cases hid : t.chainTaskId = id
      · rw [if_pos hid, if_pos hid, ← hid]
        rfl
      · rw [if_neg hid, if_neg hid]
  | _ => exact hsame

/-- The preparation touches the store and the rolls alone. -/
theorem prepared_eq (t : Task) :
    p.prepared status t =
      { p with store := (p.prepared status t).store, rolls := (p.prepared status t).rolls } := by
  unfold prepared
  split
  · have hrolls : (p.createList t.chainTaskId).2.rolls = p.rolls :=
      congrArg (·.rolls) (writeStore_snd _ p)
    rw [hrolls]
    exact writeStore_snd _ p
  · cases (p.outlook t.chainTaskId).asked? t with
    | none => rfl
    | some wallet => rfl
  · rfl

/-- A save against the version that was read succeeds. -/
theorem saveTask_moved (ht : p.store.task? t.chainTaskId = some t) :
    (p.prepared status t).saveTask ((p.outlook t.chainTaskId).moved status t) =
      (.ok ((p.outlook t.chainTaskId).moved status t).saved,
        { p.prepared status t with store := { (p.prepared status t).store with
            tasks := p.store.tasks.insert t.chainTaskId
              ((p.outlook t.chainTaskId).moved status t).saved } }) := by
  have hstored : (p.prepared status t).store.task?
      ((p.outlook t.chainTaskId).moved status t).chainTaskId = some t := by
    unfold Store.task?
    rw [tasks_prepared, Outlook.moved_chainTaskId]
    exact ht
  have hsave := Store.saveTask_of_version hstored (Outlook.moved_version _ status t).symm
  rw [tasks_prepared, Outlook.moved_chainTaskId] at hsave
  exact writeStore_ok _ hsave

/-- The save succeeds, since the task was read in the same update; then the workers are released if
it is over. -/
theorem attempt_saveChange (ht : p.store.task? t.chainTaskId = some t) :
    (p.prepared status t).attempt (saveChange ((p.outlook t.chainTaskId).moved status t)) =
      (.ok ((p.outlook t.chainTaskId).moved status t).saved, p.advanced status t) := by
  have hcall : (p.prepared status t).attempt
      (stored (Collaborators.saveTask ((p.outlook t.chainTaskId).moved status t))) =
        (.ok ((p.outlook t.chainTaskId).moved status t).saved, p.recorded status t) := by
    unfold recorded
    rw [attempt_stored, perform_saveTask, saveTask_moved status ht]
    rfl
  have hid : ((p.outlook t.chainTaskId).moved status t).saved.chainTaskId = t.chainTaskId :=
    Outlook.moved_chainTaskId _ status t
  have hstatus : ((p.outlook t.chainTaskId).moved status t).saved.status = status := rfl
  unfold saveChange advanced
  rw [attempt_bind_ok hcall]
  dsimp only
  rw [attempt_ite, hid, hstatus]
  by_cases hfrees : status.freesWorkers = true
  · rw [if_pos hfrees, if_pos hfrees]
    rfl
  · rw [if_neg hfrees, if_neg hfrees]
    rfl

/-! ## The update -/

/-- An update never fails. It makes the move that is due, if one is, and else does nothing. -/
theorem attempt_updateTask (h : p.store.Keyed) (id : String) :
    p.attempt (updateTask id) =
      match p.due? id with
      | none => (.ok none, p)
      | some (t, status) =>
        (.ok (some ((p.outlook id).moved status t).saved), p.advanced status t) := by
  have hget : p.attempt (stored (Collaborators.getTask id)) = (.ok (p.store.task? id), p) := rfl
  unfold updateTask due?
  rw [attempt_bind_ok hget]
  cases ht : p.store.task? id with
  | none => rfl
  | some t =>
    obtain rfl : t.chainTaskId = id := h.task ht
    dsimp only [Option.bind_some]
    have hdue := attempt_dueChange h t
    cases hnext : (p.outlook t.chainTaskId).next t with
    | none =>
      rw [hnext] at hdue
      exact attempt_bind_ok hdue _
    | some status =>
      rw [hnext] at hdue
      rw [attempt_bind_ok hdue]
      dsimp only [Option.map_some]
      rw [attempt_bind_ok (attempt_saveChange status ht)]
      rfl

/-- The pool after an update. -/
def update (id : String) (p : Pool) : Pool := (p.attempt (updateTask id)).2

/-- A move that is due is made. -/
theorem update_of_due {id : String} {status : TaskStatus} (h : p.store.Keyed)
    (hdue : p.due? id = some (t, status)) : p.update id = p.advanced status t := by
  unfold update
  rw [attempt_updateTask h, hdue]

/-- Where no move is due the update leaves the pool as it is. -/
theorem update_of_not_due {id : String} (h : p.store.Keyed) (hdue : p.due? id = none) :
    p.update id = p := by
  unfold update
  rw [attempt_updateTask h, hdue]

/-- The status to which an update moves a task. -/
def nextStatus? (id : String) (p : Pool) : Option TaskStatus :=
  match (p.attempt (updateTask id)).1 with
  | .ok (some t) => some t.status
  | .ok none | .error _ => none

/-- The next status is the one that the outlook of the stored task has. -/
theorem nextStatus?_eq_bind (h : p.store.Keyed) (id : String) :
    p.nextStatus? id = (p.store.task? id).bind (p.outlook id).next := by
  unfold nextStatus?
  rw [attempt_updateTask h]
  unfold due?
  cases p.store.task? id with
  | none => rfl
  | some t =>
    rw [Option.bind_some, Option.bind_some]
    cases (p.outlook id).next t with
    | none => rfl
    | some status => rfl

/-- Of a stored task the next status is read off its outlook. -/
theorem nextStatus?_eq {id : String} (h : p.store.Keyed) (ht : p.store.task? id = some t) :
    p.nextStatus? id = (p.outlook id).next t := by
  rw [nextStatus?_eq_bind h, ht, Option.bind_some]

/-- Who serves a request updates the task, and publishes it again if it moved. -/
theorem perform_serveRequest (h : p.store.Keyed) (id : String) :
    (p.perform (serveRequest id)).2 =
      match p.due? id with
      | none => p
      | some (t, status) => ((p.advanced status t).perform (publishRequest id)).2 := by
  unfold serveRequest
  rw [perform_bind, perform_run, attempt_updateTask h]
  cases p.due? id with
  | none => rfl
  | some move => rfl

/-- Apart from the dispatcher, serving a request is an update. -/
theorem serve_eq (h : p.store.Keyed) (id : String) :
    (p.perform (serveRequest id)).2 =
      { p.update id with dispatcher := (p.perform (serveRequest id)).2.dispatcher } := by
  rw [perform_serveRequest h]
  cases hdue : p.due? id with
  | none => rw [update_of_not_due h hdue]
  | some move =>
    rw [update_of_due h hdue]
    exact publishRequest_snd id _

/-! ## Looking at the pool after a move -/

/-- After the save the task has its new status and one version more. -/
theorem recorded_eq (ht : p.store.task? t.chainTaskId = some t) :
    p.recorded status t =
      { p.prepared status t with store := { (p.prepared status t).store with
          tasks := p.store.tasks.insert t.chainTaskId
            ((p.outlook t.chainTaskId).moved status t).saved } } :=
  congrArg (·.2) (saveTask_moved status ht)

/-- Freeing the workers touches the registry alone. -/
theorem advanced_eq_recorded :
    p.advanced status t =
      { p.recorded status t with registry := (p.advanced status t).registry } := by
  unfold advanced
  split
  · exact releaseWorkers_eq ..
  · rfl

/-- Only the task itself moves. -/
theorem task?_advanced (ht : p.store.task? t.chainTaskId = some t) (id : String) :
    (p.advanced status t).store.task? id =
      if t.chainTaskId = id then some ((p.outlook t.chainTaskId).moved status t).saved
      else p.store.task? id := by
  rw [advanced_eq_recorded, recorded_eq status ht]
  exact Store.task?_insert ..

/-- Only its own list may change. -/
theorem list?_advanced (ht : p.store.task? t.chainTaskId = some t) (id : String) :
    (p.advanced status t).store.list? id =
      if t.chainTaskId = id then (p.outlook t.chainTaskId).listAfter status t
      else p.store.list? id := by
  rw [advanced_eq_recorded, recorded_eq status ht]
  exact list?_prepared status t id

/-- Where the task is over, each of its participants gives back the slot. -/
theorem worker?_advanced (ht : p.store.task? t.chainTaskId = some t) (wallet : String) :
    (p.advanced status t).registry.worker? wallet =
      if status.freesWorkers ∧
          ((p.outlook t.chainTaskId).listAfter status t).any (·.hasWorker wallet) then
        (p.registry.worker? wallet).map (·.releaseTask t.chainTaskId)
      else p.registry.worker? wallet := by
  have hregistry : (p.recorded status t).registry = p.registry := by
    rw [recorded_eq status ht]
    exact congrArg (·.registry) (prepared_eq status t)
  have hlist : (p.recorded status t).store.list? t.chainTaskId =
      (p.outlook t.chainTaskId).listAfter status t := by
    rw [recorded_eq status ht]
    exact (list?_prepared status t _).trans (if_pos rfl)
  unfold advanced
  by_cases hfrees : status.freesWorkers = true
  · rw [if_pos hfrees, worker?_releaseWorkers, hregistry, hlist]
    exact if_congr (by simp [hfrees]) rfl rfl
  · rw [if_neg hfrees, if_neg fun hc => hfrees hc.1, hregistry]

/-- Nothing but the store, the registry and the rolls changes in a move. -/
theorem advanced_eq (ht : p.store.task? t.chainTaskId = some t) :
    p.advanced status t =
      { p with
        store := (p.advanced status t).store
        registry := (p.advanced status t).registry
        rolls := (p.advanced status t).rolls } := by
  rw [advanced_eq_recorded, recorded_eq status ht, prepared_eq]

end Pool

end ComputePool
