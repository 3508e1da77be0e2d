import ComputePool.Collaborators
import ComputePool.Notification

/-!
# Recovery

What a worker that comes back has missed. Its replicates are compared with the chain; where the
chain proves progress that a replicate never reported, the replicate is repaired and the task is
published for re-evaluation. The worker is then told what to do next for each of its tasks, and
each such replicate gets a mark.
-/

namespace ComputePool

variable {m : Type → Type} [Monad m] [Collaborators m]

/-- The cause for which a task of this status is aborted. -/
def TaskStatus.abortCause : TaskStatus → AbortCause
  | .consensusReached => .consensusReached
  | .contributionTimeout => .contributionTimeout
  | _ => .unknown

/-- What goes along with an instruction for a worker of the task. -/
def extraOf (t : Task) (wallet : String) : Instruction → m Extra
  | .contribute => do
    let a ← Collaborators.authorize wallet t.chainTaskId t.enclaveChallenge
    return { Extra.none with authorization := some a }
  | .reveal => return { Extra.none with block := some t.consensusBlock }
  | .abort => return { Extra.none with abortCause := some t.status.abortCause }
  | _ => return Extra.none

/-- Appends an update by the pool to a replicate. -/
def mark (id wallet : String) (status : ReplicateStatus) (details : Option Details) :
    Fallible m Unit := do
  let u := StatusUpdate.byPool (← certain Collaborators.now) status details
  let _ ← stored (Collaborators.updateReplicate id wallet u)

/-- The last relevant status of a replicate as it is stored now. -/
def latestRelevant (id wallet : String) : Fallible m (Option ReplicateStatus) := do
  return (← stored (Collaborators.getReplicate id wallet)).bind (·.lastRelevant?)

/-- What the chain says about the contribution of a replicate to a task. -/
def contributionOf (t : Task) (r : Replicate) : Fallible m (Option Contribution) :=
  onChain (Collaborators.getContribution t.chainTaskId r.wallet)

variable [Publisher m]

/-- Records progress that the chain proves, and asks for the task to be re-evaluated. -/
def repair (id wallet : String) (status : ReplicateStatus) (details : Details) :
    Fallible m Unit := do
  mark id wallet status (some details)
  let _ ← certain (Publisher.publish id)

/-- What is told to a worker that contributed: to reveal if there is a consensus, else to wait. -/
def afterContribution (t : Task) (r : Replicate) : Fallible m (Option Instruction) := do
  if (← latestRelevant t.chainTaskId r.wallet) != some .contributed then return none
  match ← stored (Collaborators.getList t.chainTaskId) with
  | none => return none
  | some l =>
    if ← certain (isConsensusReached l) then
      let _ ← certain (Publisher.publish t.chainTaskId)
      return some .reveal
    else return some .wait

/-- What to do next while contributions are awaited. -/
def inContribution (t : Task) (r : Replicate) (block : UInt64) :
    Fallible m (Option Instruction) := do
  match r.lastRelevant? with
  | none => return none
  | some last =>
    if last < .contributing then return some .contribute
    else if last = .contributing then
      match (← contributionOf t r).filter (·.isContributed) with
      | none => return some .contribute
      | some c =>
        let details := { Details.ofBlock block with resultHash := some c.resultHash }
        repair t.chainTaskId r.wallet .contributed details
        afterContribution t r
    else afterContribution t r

/-- What is told to a worker that revealed: to wait, or to upload if it was asked to. -/
def afterReveal (t : Task) (r : Replicate) : Fallible m (Option Instruction) := do
  match ← latestRelevant t.chainTaskId r.wallet with
  | some .revealed => return some .wait
  | some .resultUploadRequested => return some .upload
  | _ => return none

/-- What to do next while reveals are awaited. -/
def inReveal (t : Task) (r : Replicate) (block : UInt64) : Fallible m (Option Instruction) := do
  match r.lastRelevant? with
  | none => return none
  | some .contributed => return some .reveal
  | some .revealing =>
    if (← contributionOf t r).any (·.isRevealed) then
      repair t.chainTaskId r.wallet .revealed (.ofBlock block)
      afterReveal t r
    else return some .reveal
  | some _ => afterReveal t r

/-- What to do next while the result is awaited. -/
def inResultUpload (t : Task) (r : Replicate) : Fallible m (Option Instruction) := do
  match r.lastRelevant? with
  | some .resultUploadRequested => return some .upload
  | some .resultUploading =>
    if ← certain (Collaborators.isResultUploaded t.chainTaskId) then
      repair t.chainTaskId r.wallet .resultUploaded .none
      return some .wait
    else return some .upload
  | some .resultUploaded => return some .wait
  | _ => return none

/-- What to do next once the result is there: a worker that revealed completes with the task. The
task is read again, since it may have moved on. -/
def inCompletion (r : Replicate) : Fallible m (Option Instruction) := do
  match ← stored (Collaborators.getTask r.chainTaskId) with
  | none => return none
  | some t =>
    if !r.reached .revealed then return none
    return some (if t.status = .completed then .complete else .wait)

/-- What the worker of a replicate should do next for a task, if anything. -/
def instructionFor (t : Task) (r : Replicate) (block : UInt64) :
    Fallible m (Option Instruction) := do
  if r.history.isEmpty || t.tee && !t.hasEnclaveChallenge then return none
  if t.phase? = some .contribution then inContribution t r block
  else if t.status = .contributionTimeout ||
      t.status = .consensusReached && !r.reached .contributed then return some .abort
  else match t.phase? with
    | some .reveal => inReveal t r block
    | some .resultUpload => inResultUpload t r
    | some .completion => inCompletion r
    | _ => return none

/-- What the worker missed in one of its tasks. -/
def missedIn (t : Task) (wallet : String) (block : UInt64) :
    Fallible m (Option Notification) := do
  match ← stored (Collaborators.getReplicate t.chainTaskId wallet) with
  | none => return none
  | some r =>
    if !r.isRecoverable then return none
    match ← instructionFor t r block with
    | none => return none
    | some instruction =>
      let extra ← certain (extraOf t wallet instruction)
      mark t.chainTaskId wallet .recovering none
      return some (.forWorker t.chainTaskId wallet instruction extra)

/-- What the worker missed in these tasks. -/
def missedInAll (wallet : String) (block : UInt64) : List Task → Fallible m (List Notification)
  | [] => return []
  | t :: rest => do
    let first ← missedIn t wallet block
    return first.toList ++ (← missedInAll wallet block rest)

/-- What a worker that comes back at a block has missed in all its tasks. -/
def missedNotifications (block : UInt64) (wallet : String) : Fallible m (List Notification) := do
  let ids ← stored (Collaborators.workIds wallet)
  missedInAll wallet block (← stored (Collaborators.getTasks ids))

end ComputePool
