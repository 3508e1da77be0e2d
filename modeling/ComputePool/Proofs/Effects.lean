import ComputePool.Admission
import ComputePool.Detection
import ComputePool.Proofs.Records
import ComputePool.Recovery
import ComputePool.Transition

/-!
# The steps that each service takes

Every service is taken apart once into its single steps, and stays within a small set of them:

* an update within `Step.Updates`,
* an admission within `Step.Admits`,
* a recovery within `Step.Recovers`,
* a detection within `Step.Publishes`.

So whatever these sets leave alone, the services leave alone: no admission, recovery or detection
writes a task, for instance, and no recovery or detection touches a worker.
-/

namespace ComputePool

namespace Step

/-- The steps of an update. -/
def Updates : Step → Prop
  | .saveTask _ | .createList _ | .updateReplicate .. | .endWork .. | .draw _ => True
  | _ => False

/-- The steps of an admission. -/
def Admits : Step → Prop
  | .removeWorker _ | .addReplicate .. | .addWork .. | .removeReplicate .. | .tryLock _
  | .unlock _ => True
  | _ => False

/-- The steps of a detection. -/
def Publishes : Step → Prop
  | .publish _ => True
  | _ => False

/-- The steps of a recovery. -/
def Recovers : Step → Prop
  | .updateReplicate .. | .publish _ => True
  | _ => False

/-- A recovery may do all that a detection does. -/
theorem Publishes.recovers {s : Step} (h : s.Publishes) : s.Recovers := by
  cases s with
  | publish id => trivial
  | _ => exact h.elim

/-- A recovery writes reports and requests, and no task. -/
theorem Recovers.not_writesTasks {s : Step} (h : s.Recovers) : ¬ s.WritesTasks := by
  cases s with
  | updateReplicate id wallet u => exact not_false
  | publish id => exact not_false
  | _ => exact h.elim

/-- A recovery leaves the registry alone. -/
theorem Recovers.part_ne_registry {s : Step} (h : s.Recovers) : s.part ≠ .registry := by
  cases s with
  | updateReplicate id wallet u => exact Part.noConfusion
  | publish id => exact Part.noConfusion
  | _ => exact h.elim

/-- An admission writes to lists and to the registry, and no task. -/
theorem Admits.not_writesTasks {s : Step} (h : s.Admits) : ¬ s.WritesTasks := by
  cases s with
  | insertTask t => exact h.elim
  | saveTask t => exact h.elim
  | _ => exact not_false

end Step

variable {S : Step → Prop}

/-! ## Calls that change nothing -/

theorem Performs.now : Performs S (Collaborators.now (m := StateM Pool)) := of_read fun _ => rfl

/-- To look for a consensus is no step. -/
theorem Performs.consensus (l : ReplicateList) :
    Performs S (isConsensusReached (m := StateM Pool) l) := by
  refine of_read fun p => ?_
  rw [Pool.perform_isConsensusReached]

/-- To ask the chain for a task is no step. -/
theorem Attempts.chainTaskOf (t : Task) :
    Attempts S (ComputePool.chainTaskOf (m := StateM Pool) t) := onChain (.of_read fun _ => rfl)

/-- To read the list of a task is no step, also where there is none yet. -/
theorem Attempts.listOf (t : Task) : Attempts S (ComputePool.listOf (m := StateM Pool) t) :=
  bind (stored (.of_read fun _ => rfl)) fun _ => pure _

/-- A move is made on the copy of the task that was read; it is no step until it is saved. -/
theorem Attempts.moveTo (status : TaskStatus) (t : Task) :
    Attempts S (ComputePool.moveTo (m := StateM Pool) status t) :=
  bind (certain .now) fun _ => pure _

/-! ## Updates -/

/-- The list of a task is created if there is none. -/
theorem ensureList_updates (t : Task) :
    Attempts Step.Updates (ensureList (m := StateM Pool) t) := by
  refine .bind (.certain (.of_step (s := .createList t.chainTaskId) trivial fun _ => rfl)) ?_
  intro r
  match r with
  | .ok _ => exact .pure _
  | .error (.duplicate ..) => exact .pure _
  | .error (.notFound ..) => exact .throw _
  | .error (.conflict ..) => exact .throw _
  | .error (.backend _) => exact .throw _

/-- While a task is initialized its list is created and the task is changed. -/
theorem trackInitialization_updates (t : Task) :
    Attempts Step.Updates (trackInitialization (m := StateM Pool) t) := by
  refine .bind (.chainTaskOf t) fun c => .ite (.pure _) (.ite (.moveTo _ t) ?_)
  exact .bind (ensureList_updates t) fun _ => .moveTo _ _

theorem contribute_updates (t : Task) :
    Attempts Step.Updates (contribute (m := StateM Pool) t) := by
  refine .bind (.listOf t) fun l => .bind (.certain (.consensus l)) fun reached => .ite ?_ ?_
  · exact .ite (.moveTo _ t) (.bind (.chainTaskOf t) fun c => .moveTo _ _)
  · refine .bind (.certain .now) fun now => .ite (.moveTo _ t) ?_
    exact .ite (.moveTo _ t) (.pure _)

/-- To begin revealing nothing but the copy of the task is changed. -/
theorem startReveal_updates (t : Task) :
    Attempts Step.Updates (startReveal (m := StateM Pool) t) :=
  .bind (.listOf t) fun _ => .ite (.pure _) (.moveTo _ t)

/-- The uploader is drawn among the candidates and asked by a report. -/
theorem chooseUploader_updates (t : Task) (l : ReplicateList) :
    Attempts Step.Updates (chooseUploader (m := StateM Pool) t l) := by
  refine .ite (.pure _) ?_
  refine .bind (.certain (.of_step (s := .draw _) trivial fun _ => rfl)) fun n => ?_
  match l.uploadCandidates[n]? with
  | none => exact .pure _
  | some r =>
    refine .bind (.certain .now) fun now => ?_
    exact .bind (.stored (.of_step (s := .updateReplicate ..) trivial fun _ => rfl))
      fun _ => .pure _

/-- An upload is requested of the uploader who was asked before, or of one who is chosen now. -/
theorem requestUpload_updates (t : Task) :
    Attempts Step.Updates (requestUpload (m := StateM Pool) t) := by
  refine .bind (.listOf t) fun l => ?_
  cases l.requestedUploader? with
  | some r =>
    refine .bind (.pure _) fun uploader => ?_
    cases uploader with
    | none => exact .pure _
    | some wallet => exact .moveTo _ _
  | none =>
    refine .bind (chooseUploader_updates t l) fun uploader => ?_
    cases uploader with
    | none => exact .pure _
    | some wallet => exact .moveTo _ _

theorem trackUpload_updates (t : Task) :
    Attempts Step.Updates (trackUpload (m := StateM Pool) t) := by
  refine .bind (.listOf t) fun l => ?_
  match l.uploaded? with
  | some r => exact .moveTo _ _
  | none => exact .ite (.moveTo _ t) (.pure _)

theorem finalize_updates (t : Task) : Attempts Step.Updates (finalize (m := StateM Pool) t) :=
  .bind (.chainTaskOf t) fun _ => .ite (.moveTo _ t) (.pure _)

/-- Whatever the status of the task is, what comes next is found within the steps of an update. -/
theorem dueChange_updates (t : Task) : Attempts Step.Updates (dueChange (m := StateM Pool) t) := by
  refine .bind (.certain .now) fun now => .ite (.moveTo _ t) ?_
  cases t.status with
  | received => exact trackInitialization_updates t
  | initializing => exact trackInitialization_updates t
  | initialized => exact contribute_updates t
  | running => exact contribute_updates t
  | consensusReached => exact startReveal_updates t
  | contributionTimeout => exact .pure _
  | revealing => exact requestUpload_updates t
  | resultUploadRequested => exact trackUpload_updates t
  | resultUploading => exact trackUpload_updates t
  | resultUploaded => exact finalize_updates t
  | finalizing => exact finalize_updates t
  | finalized => exact finalize_updates t
  | completed => exact .pure _
  | failed => exact .pure _

/-- One slot after the other is given back. -/
theorem releaseAll_updates (id : String) (rs : List Replicate) :
    Performs Step.Updates (releaseAll (m := StateM Pool) id rs) := by
  induction rs with
  | nil => exact .pure _
  | cons r rest ih => exact .bind (.of_step (s := .endWork ..) trivial fun _ => rfl) fun _ => ih

/-- The slots of all participants of a task are given back. -/
theorem releaseWorkers_updates (id : String) :
    Performs Step.Updates (releaseWorkers (m := StateM Pool) id) := by
  refine .bind (.of_read fun _ => rfl) fun r => ?_
  match r with
  | .ok (some l) => exact releaseAll_updates id l.replicates
  | .ok none => exact .pure _
  | .error e => exact .pure _

/-- The changed task is saved, and if it is over its workers are released. -/
theorem saveChange_updates (t : Task) :
    Attempts Step.Updates (saveChange (m := StateM Pool) t) := by
  refine .bind (.stored (.of_step (s := .saveTask t) trivial fun _ => rfl)) fun saved => ?_
  exact .ite (.bind (.certain (releaseWorkers_updates _)) fun _ => .pure _) (.pure _)

/-- An update takes only its steps. -/
theorem updateTask_updates (id : String) :
    Attempts Step.Updates (updateTask (m := StateM Pool) id) := by
  refine .bind (.stored (.of_read fun _ => rfl)) fun found => ?_
  match found with
  | none => exact .pure _
  | some t =>
    refine .bind (dueChange_updates t) fun changed => ?_
    match changed with
    | none => exact .pure _
    | some c => exact .bind (saveChange_updates c) fun _ => .pure _

/-! ## Detections -/

/-- A detection publishes the tasks that pass its test, if the test itself only publishes. -/
theorem publishWhere_publishes {test : Task → Fallible (StateM Pool) Bool}
    (htest : ∀ t, Attempts Step.Publishes (test t)) (l : List Task) :
    Attempts Step.Publishes (publishWhere test l) := by
  induction l with
  | nil => exact .pure _
  | cons t rest ih =>
    have hpublish : Attempts Step.Publishes
        (certain (Publisher.publish (m := StateM Pool) t.chainTaskId)) :=
      .certain (.of_step (s := .publish t.chainTaskId) trivial fun _ => rfl)
    refine .bind (htest t) fun holds => .ite ?_ ?_
    · exact .bind hpublish fun accepted => .bind ih fun n => .pure _
    · exact .bind (.pure _) fun accepted => .bind ih fun n => .pure _

/-- A detection among the tasks of some statuses stays within its test and its requests. -/
theorem publishIn_publishes {test : Task → Fallible (StateM Pool) Bool}
    (htest : ∀ t, Attempts Step.Publishes (test t)) (statuses : List TaskStatus) :
    Attempts Step.Publishes (publishIn statuses test) :=
  .bind (.stored (.of_read fun _ => rfl)) fun l => publishWhere_publishes htest l

/-- A detection only publishes. -/
theorem detect_publishes (d : Detector) :
    Attempts Step.Publishes (detect (m := StateM Pool) d) := by
  have hchain : ∀ (test : ChainTask → Bool) (t : Task),
      Attempts Step.Publishes (chainTaskIs (m := StateM Pool) test t) := fun test t =>
    .bind (.onChain (.of_read fun _ => rfl)) fun _ => .pure _
  cases d with
  | initializedTask => exact publishIn_publishes (hchain _) _
  | finalizedTask => exact publishIn_publishes (hchain _) _
  | unstartedTransaction =>
    refine .bind (publishIn_publishes (fun _ => .pure _) _) fun n => ?_
    exact .bind (publishIn_publishes (fun _ => .pure _) _) fun k => .pure _
  | finalDeadline =>
    exact publishIn_publishes (fun t => .bind (.certain .now) fun now => .pure _) _

/-! ## Recoveries -/

/-- A mark is a report that the pool makes itself. -/
theorem mark_recovers (id wallet : String) (status : ReplicateStatus) (details : Option Details) :
    Attempts Step.Recovers (mark (m := StateM Pool) id wallet status details) := by
  refine .bind (.certain .now) fun now => ?_
  exact .bind (.stored (.of_step (s := .updateReplicate ..) trivial fun _ => rfl)) fun _ => .pure _

/-- A recovery may ask for an update of the task. -/
theorem publish_recovers (id : String) :
    Attempts Step.Recovers (certain (Publisher.publish (m := StateM Pool) id)) :=
  .certain (.of_step (s := .publish id) trivial fun _ => rfl)

/-- A repair is a report and a request for an update. -/
theorem repair_recovers (id wallet : String) (status : ReplicateStatus) (details : Details) :
    Attempts Step.Recovers (repair (m := StateM Pool) id wallet status details) :=
  .bind (mark_recovers _ _ _ _) fun _ => .bind (publish_recovers id) fun _ => .pure _

/-- The standing of a replicate is read again after a repair. -/
theorem latestRelevant_recovers (id wallet : String) :
    Attempts Step.Recovers (latestRelevant (m := StateM Pool) id wallet) :=
  .bind (.stored (.of_read fun _ => rfl)) fun _ => .pure _

theorem contributionOf_recovers (t : Task) (r : Replicate) :
    Attempts Step.Recovers (contributionOf (m := StateM Pool) t r) :=
  .onChain (.of_read fun _ => rfl)

/-- What a worker is told after its contribution takes no steps but those of a recovery. -/
theorem afterContribution_recovers (t : Task) (r : Replicate) :
    Attempts Step.Recovers (afterContribution (m := StateM Pool) t r) := by
  refine .bind (latestRelevant_recovers _ _) fun last => .ite (.pure _) ?_
  refine .bind (.stored (.of_read fun _ => rfl)) fun found => ?_
  match found with
  | none => exact .pure _
  | some l =>
    refine .bind (.certain (.consensus l)) fun reached => .ite ?_ (.pure _)
    exact .bind (publish_recovers _) fun _ => .pure _

/-- A missed contribution is repaired before the worker is told what to do. -/
theorem inContribution_recovers (t : Task) (r : Replicate) (block : UInt64) :
    Attempts Step.Recovers (inContribution (m := StateM Pool) t r block) := by
  unfold inContribution
  match r.lastRelevant? with
  | none => exact .pure _
  | some last =>
    refine .ite (.pure _) (.ite ?_ (afterContribution_recovers t r))
    refine .bind (contributionOf_recovers t r) fun c => ?_
    split
    · exact .pure _
    · exact .bind (repair_recovers _ _ _ _) fun _ => afterContribution_recovers t r

theorem afterReveal_recovers (t : Task) (r : Replicate) :
    Attempts Step.Recovers (afterReveal (m := StateM Pool) t r) := by
  refine .bind (latestRelevant_recovers _ _) fun last => ?_
  split
  · exact .pure _
  · exact .pure _
  · exact .pure _

theorem inReveal_recovers (t : Task) (r : Replicate) (block : UInt64) :
    Attempts Step.Recovers (inReveal (m := StateM Pool) t r block) := by
  unfold inReveal
  split
  · exact .pure _
  · exact .pure _
  · refine .bind (contributionOf_recovers t r) fun c => .ite ?_ (.pure _)
    exact .bind (repair_recovers _ _ _ _) fun _ => afterReveal_recovers t r
  · exact afterReveal_recovers t r

theorem inResultUpload_recovers (t : Task) (r : Replicate) :
    Attempts Step.Recovers (inResultUpload (m := StateM Pool) t r) := by
  unfold inResultUpload
  split
  · exact .pure _
  · refine .bind (.certain (.of_read fun _ => rfl)) fun uploaded => .ite ?_ (.pure _)
    exact .bind (repair_recovers _ _ _ _) fun _ => .pure _
  · exact .pure _
  · exact .pure _

theorem inCompletion_recovers (r : Replicate) :
    Attempts Step.Recovers (inCompletion (m := StateM Pool) r) := by
  refine .bind (.stored (.of_read fun _ => rfl)) fun found => ?_
  match found with
  | none => exact .pure _
  | some t => exact .ite (.pure _) (.pure _)

/-- Whatever phase the task is in, the worker is told within the steps of a recovery. -/
theorem instructionFor_recovers (t : Task) (r : Replicate) (block : UInt64) :
    Attempts Step.Recovers (instructionFor (m := StateM Pool) t r block) := by
  refine .ite (.pure _) (.ite (inContribution_recovers t r block) (.ite (.pure _) ?_))
  split
  · exact inReveal_recovers t r block
  · exact inResultUpload_recovers t r
  · exact inCompletion_recovers r
  · exact .pure _

/-- Each task is marked and its worker told, or it is left out. -/
theorem missedIn_recovers (t : Task) (wallet : String) (block : UInt64) :
    Attempts Step.Recovers (missedIn (m := StateM Pool) t wallet block) := by
  refine .bind (.stored (.of_read fun _ => rfl)) fun found => ?_
  match found with
  | none => exact .pure _
  | some r =>
    refine .ite (.pure _) (.bind (instructionFor_recovers t r block) fun instruction => ?_)
    match instruction with
    | none => exact .pure _
    | some instruction =>
      refine .bind (.certain (.of_read fun p => ?_)) fun extra =>
        .bind (mark_recovers _ _ _ _) fun _ => .pure _
      cases instruction <;> rfl

/-- One task after the other is gone through within the steps of a recovery. -/
theorem missedInAll_recovers (wallet : String) (block : UInt64) (l : List Task) :
    Attempts Step.Recovers (missedInAll (m := StateM Pool) wallet block l) := by
  induction l with
  | nil => exact .pure _
  | cons t rest ih =>
    exact .bind (missedIn_recovers t wallet block) fun first => .bind ih fun _ => .pure _

/-- A recovery only appends to replicates and publishes. -/
theorem missedNotifications_recovers (block : UInt64) (wallet : String) :
    Attempts Step.Recovers (missedNotifications (m := StateM Pool) block wallet) :=
  .bind (.stored (.of_read fun _ => rfl)) fun _ =>
    .bind (.stored (.of_read fun _ => rfl)) fun l => missedInAll_recovers wallet block l

/-! ## Admissions -/

/-- To enrol a worker a replicate is added and the work recorded, or the replicate is taken out
again. -/
theorem enrol_admits (t : Task) (wallet : String) (l : ReplicateList) :
    Attempts Step.Admits (enrol (m := StateM Pool) t wallet l) := by
  refine .bind (.certain (.of_step (s := .addReplicate l wallet) trivial fun _ => rfl)) fun r => ?_
  match r with
  | .error (.duplicate ..) => exact .pure _
  | .error (.notFound ..) => exact .throw _
  | .error (.conflict ..) => exact .throw _
  | .error (.backend _) => exact .throw _
  | .ok _ =>
    refine .bind (.certain (.of_step (s := .addWork ..) trivial fun _ => rfl)) fun r => ?_
    match r with
    | .ok () => exact .pure _
    | .error e =>
      refine .bind (.certain (.of_step (s := .removeReplicate ..) trivial fun _ => rfl)) ?_
      exact fun _ => .throw _

/-- The decision under the lock reads the list again and then enrols the worker, or not. -/
theorem decideLocked_admits (t : Task) (wallet : String) :
    Attempts Step.Admits (decideLocked (m := StateM Pool) t wallet) := by
  refine .bind (.stored (.of_read fun _ => rfl)) fun found => ?_
  match found with
  | none => exact .pure _
  | some l =>
    refine .ite (.pure _) (.bind (.certain (.consensus l)) fun reached => .ite (.pure _) ?_)
    exact enrol_admits t wallet l

/-- One attempt removes a worker that may not join, or takes the lock, decides and gives the lock
back. -/
theorem acceptOrReject_admits (t : Task) (wallet : String) :
    Attempts Step.Admits (acceptOrReject (m := StateM Pool) t wallet) := by
  refine .bind (.stored (.of_read fun _ => rfl)) fun allowed => .ite ?_ ?_
  · refine .bind (.stored (.of_step (s := .removeWorker wallet) trivial fun _ => rfl)) fun _ => ?_
    exact .pure _
  refine .ite (.pure _) (.bind (.stored (.of_read fun _ => rfl)) fun found => ?_)
  match found with
  | none => exact .pure _
  | some l =>
    refine .ite (.pure _) ?_
    refine .bind (.certain (.of_step (s := .tryLock t.chainTaskId) trivial fun _ => rfl)) ?_
    intro lock
    match lock with
    | none => exact .pure _
    | some ticket =>
      refine .bind (.certain (.run (decideLocked_admits t wallet))) fun outcome => ?_
      refine .bind (.certain (.of_step (s := .unlock ticket) trivial fun _ => rfl)) fun _ => ?_
      exact .mk (.pure _)

/-- Attempts that are repeated take the steps of each attempt. -/
theorem admitRepeatedly_admits (t : Task) (wallet : String) (attempts : Nat) :
    Performs Step.Admits (admitRepeatedly (m := StateM Pool) t wallet attempts) := by
  induction attempts with
  | zero => exact .pure _
  | succ attempts ih =>
    refine .bind (.run (acceptOrReject_admits t wallet)) fun r => ?_
    match r with
    | .ok _ => exact .pure _
    | .error e => exact .ite ih (.pure _)

/-- A scan of the open tasks takes the steps of an attempt at each of them. -/
theorem scan_admits (w : Worker) (wallet : String) (attempts rounds : Nat)
    (scanned : List String) :
    Attempts Step.Admits (scan (m := StateM Pool) w wallet attempts rounds scanned) := by
  induction rounds generalizing scanned with
  | zero => exact .pure _
  | succ rounds ih =>
    refine .bind (.stored (.of_read fun _ => rfl)) fun best => ?_
    match best with
    | none => exact .pure _
    | some t =>
      refine .bind (.certain (admitRepeatedly_admits t wallet attempts)) fun accepted => ?_
      exact .ite (.bind (.certain (.of_read fun _ => rfl)) fun _ => .pure _) (ih _)

/-- An admission takes only its steps. -/
theorem findAuthorization_admits (lastBlock : UInt64) (wallet : String) :
    Attempts Step.Admits (findAuthorization (m := StateM Pool) lastBlock wallet) := by
  refine .bind (.stored (.of_read fun _ => rfl)) fun accepts => .ite (.pure _) (.ite (.pure _) ?_)
  refine .bind (.stored (.of_read fun _ => rfl)) fun gas => .ite (.pure _) ?_
  refine .bind (.stored (.of_read fun _ => rfl)) fun found => ?_
  match found with
  | none => exact .pure _
  | some w =>
    refine .bind (.certain (.of_read fun _ => rfl)) fun attempts => ?_
    exact .bind (.certain (.of_read fun _ => rfl)) fun rounds => scan_admits w wallet _ _ []

end ComputePool
