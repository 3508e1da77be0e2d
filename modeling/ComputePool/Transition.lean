import ComputePool.Collaborators

/-!
# Task transitions

One request applies at most one transition of a task: the one that is due by the clock, the
records and the chain. The changed task is saved against the version that was read, and the task
is published again, so that the next transition, if there is one, is applied in turn.

`dueChange` is the transition table; every function it calls gives the changed task, or `none` if
no transition is due.
-/

namespace ComputePool

open Collaborators (now)

variable {m : Type → Type} [Monad m] [Collaborators m]

/-- The task moved to a status at the present time. -/
def moveTo (status : TaskStatus) (t : Task) : Fallible m (Option Task) := do
  return some (t.changeStatus (← certain now) status)

/-- What the chain says about a task. -/
def chainTaskOf (t : Task) : Fallible m (Option ChainTask) :=
  onChain (Collaborators.getChainTask t.chainTaskId)

/-- The replicate list of a task, empty if there is none. -/
def listOf (t : Task) : Fallible m ReplicateList := do
  return (← stored (Collaborators.getList t.chainTaskId)).getD (.empty t.chainTaskId)

/-- Creates the replicate list of a task, unless there is one. -/
def ensureList (t : Task) : Fallible m Unit := do
  match ← certain (Collaborators.createList t.chainTaskId) with
  | .ok _ | .error (.duplicate ..) => return ()
  | .error e => throw (.store e)

/-- A task that runs outside an enclave gets the empty challenge. -/
def withChallenge (t : Task) : Task :=
  if !t.tee && !t.hasEnclaveChallenge then { t with enclaveChallenge := emptyEnclaveChallenge }
  else t

/-- Received, initializing, initialized, once the chain knows the task. -/
def trackInitialization (t : Task) : Fallible m (Option Task) := do
  if !(← chainTaskOf t).any (·.status != .unset) then return none
  if t.status = .received then moveTo .initializing t
  else
    ensureList t
    moveTo .initialized (withChallenge t)

/-- Records the consensus that the chain has for the task. -/
def withConsensus (c : Option ChainTask) (t : Task) : Task :=
  match c with
  | some c => { t with consensus := some c.consensusValue, consensusBlock := c.revealingBlock }
  | none => t

/-- Initialized, running, consensus reached; or timed out. -/
def contribute (t : Task) : Fallible m (Option Task) := do
  let l ← listOf t
  if ← certain (isConsensusReached l) then
    if t.status = .initialized then moveTo .running t
    else moveTo .consensusReached (withConsensus (← chainTaskOf t) t)
  else if t.contributionDeadlineReached (← certain now) then moveTo .contributionTimeout t
  else if t.status = .initialized && l.isStarted then moveTo .running t
  else return none

/-- Consensus reached, revealing, once a replicate revealed. -/
def startReveal (t : Task) : Fallible m (Option Task) := do
  if (← listOf t).reachedCount [.revealed] = 0 then return none
  moveTo .revealing t

/-- One of the replicates that revealed, chosen by chance and asked to upload the result. -/
def chooseUploader (t : Task) (l : ReplicateList) : Fallible m (Option String) := do
  let candidates := l.uploadCandidates
  if candidates.isEmpty then return none
  match candidates[← certain (Collaborators.draw candidates.length)]? with
  | none => return none
  | some r =>
    let u := StatusUpdate.byPool (← certain now) .resultUploadRequested none
    let _ ← stored (Collaborators.updateReplicate t.chainTaskId r.wallet u)
    return some r.wallet

/-- Revealing, result upload requested. A replicate that was asked already is not passed over: an
earlier attempt may have asked it and then failed to save the task. -/
def requestUpload (t : Task) : Fallible m (Option Task) := do
  let l ← listOf t
  let uploader ← match l.requestedUploader? with
    | some r => pure (some r.wallet)
    | none => chooseUploader t l
  match uploader with
  | none => return none
  | some wallet => moveTo .resultUploadRequested { t with uploader := some wallet }

/-- The uploader of the task is uploading. -/
def isUploading (t : Task) (l : ReplicateList) : Bool :=
  (t.uploader.bind l.find?).any (·.status == .resultUploading)

/-- Result upload requested, uploading, uploaded. -/
def trackUpload (t : Task) : Fallible m (Option Task) := do
  let l ← listOf t
  match l.uploaded? with
  | some r => moveTo .resultUploaded { t with resultLink := r.resultLink }
  | none =>
    if t.status = .resultUploadRequested && isUploading t l then moveTo .resultUploading t
    else return none

/-- The status after this one on the way from an uploaded result to completion. -/
def nextToCompletion : TaskStatus → TaskStatus
  | .resultUploaded => .finalizing
  | .finalizing => .finalized
  | _ => .completed

/-- Result uploaded, finalizing, finalized, completed, once the chain completed the task. -/
def finalize (t : Task) : Fallible m (Option Task) := do
  if (← chainTaskOf t).any (·.status == .completed) then moveTo (nextToCompletion t.status) t
  else return none

/-- The task after the transition that is due, if one is. A task past its final deadline fails,
whatever else is due. -/
def dueChange (t : Task) : Fallible m (Option Task) := do
  if !t.status.isTerminal && t.finalDeadlineReached (← certain now) then moveTo .failed t
  else match t.status with
    | .received | .initializing => trackInitialization t
    | .initialized | .running => contribute t
    | .consensusReached => startReveal t
    | .revealing => requestUpload t
    | .resultUploadRequested | .resultUploading => trackUpload t
    | .resultUploaded | .finalizing | .finalized => finalize t
    | .contributionTimeout | .completed | .failed => return none

/-- Frees the computing slots that these replicates hold, as far as that can be done. -/
def releaseAll (id : String) : List Replicate → m Unit
  | [] => return ()
  | r :: rest => do
    let _ ← Collaborators.endWork r.wallet id
    releaseAll id rest

/-- Frees the computing slots of a task's participants. -/
def releaseWorkers (id : String) : m Unit := do
  match ← Collaborators.getList id with
  | .ok (some l) => releaseAll id l.replicates
  | .ok none | .error _ => return ()

/-- Saves a changed task, and frees its workers if it is over. -/
def saveChange (t : Task) : Fallible m Task := do
  let saved ← stored (Collaborators.saveTask t)
  if saved.status.freesWorkers then certain (releaseWorkers saved.chainTaskId)
  return saved

/-- Applies the transition of a task that is due, and gives the saved task. -/
def updateTask (id : String) : Fallible m (Option Task) := do
  match ← stored (Collaborators.getTask id) with
  | none => return none
  | some t =>
    match ← dueChange t with
    | none => return none
    | some changed => return some (← saveChange changed)

/-- Serves a request: updates the task, and publishes it again if it changed, now or while it was
being updated. -/
def serveRequest [Publisher m] (id : String) : m Unit := do
  match ← (updateTask id).run with
  | .ok (some _) => let _ ← Publisher.publish id
  | .ok none => return ()
  | .error e => if e.isConflict then let _ ← Publisher.publish id

end ComputePool
