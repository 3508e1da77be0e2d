import ComputePool.Replicate.Status

/-!
# Replicates

A replicate is one worker's attempt at a task: its status updates, oldest first, and what was
learnt from them. `updateStatus` appends an update; the first result hash reported becomes the
contribution hash and stays it.
-/

namespace ComputePool

/-- Who asked for a status update. -/
inductive Modifier where
  | worker
  | poolManager
deriving DecidableEq, Repr

instance : Named Modifier where
  all := [.worker, .poolManager]
  name
    | .worker => "WORKER"
    | .poolManager => "POOL_MANAGER"

/-- What may be reported along with a status update. -/
structure Details where
  receiptBlock : Option UInt64
  exitCode : Option Int32
  teeError : Option String
  /-- The result hash read from the contribution on chain. -/
  resultHash : Option String
deriving DecidableEq, Inhabited

/-- Nothing reported. -/
def Details.none : Details := ⟨.none, .none, .none, .none⟩

/-- Only the block of the chain receipt. -/
def Details.ofBlock (block : UInt64) : Details := { Details.none with receiptBlock := some block }

/-- One entry of a replicate's history. -/
structure StatusUpdate where
  status : ReplicateStatus
  modifier : Modifier
  date : Instant
  details : Option Details
deriving DecidableEq

namespace StatusUpdate

/-- An update reported by the worker itself. -/
def byWorker (now : Instant) (status : ReplicateStatus) (details : Option Details) :
    StatusUpdate :=
  ⟨status, .worker, now, details⟩

/-- An update decided by the pool. -/
def byPool (now : Instant) (status : ReplicateStatus) (details : Option Details) :
    StatusUpdate :=
  ⟨status, .poolManager, now, details⟩

/-- The result hash that the update carries. -/
def resultHash? (u : StatusUpdate) : Option String := u.details.bind (·.resultHash)

end StatusUpdate

/-- One worker's attempt at a task. -/
structure Replicate where
  chainTaskId : String
  wallet : String
  status : ReplicateStatus
  /-- Every update, oldest first. -/
  history : List StatusUpdate
  /-- The first result hash that an update carried. -/
  contributionHash : Option String
  resultLink : Option String
deriving DecidableEq, Inhabited

namespace Replicate

/-- A replicate just created. -/
def fresh (now : Instant) (wallet chainTaskId : String) : Replicate where
  chainTaskId := chainTaskId
  wallet := wallet
  status := .created
  history := [.byPool now .created none]
  contributionHash := none
  resultLink := none

/-- Appends a status update. -/
def updateStatus (u : StatusUpdate) (r : Replicate) : Replicate :=
  { r with
    contributionHash := r.contributionHash.or u.resultHash?
    status := u.status
    history := r.history ++ [u] }

/-- The latest status that says where the replicate stands. -/
def lastRelevant? (r : Replicate) : Option ReplicateStatus :=
  (r.history.reverse.map (·.status)).find? ReplicateStatus.isRelevant

/-- The last relevant status comes strictly before `status`. -/
def isBefore (status : ReplicateStatus) (r : Replicate) : Bool :=
  r.lastRelevant?.any (· < status)

/-- The worker may resume the replicate. -/
def isRecoverable (r : Replicate) : Bool := r.lastRelevant?.any ReplicateStatus.isRecoverable

/-- The replicate once had the status. -/
def reached (status : ReplicateStatus) (r : Replicate) : Bool :=
  r.history.any (·.status == status)

/-- The history ends in `status` followed by the loss of the worker. -/
def isLostAfter (status : ReplicateStatus) (r : Replicate) : Bool :=
  match r.history.reverse with
  | last :: before :: _ => last.status == .workerLost && before.status == status
  | _ => false

/-- The replicate counts towards the trust target. -/
def isAlive (r : Replicate) : Bool := !r.status.isDead

/-- The worker uploaded the result, even if it was lost right afterwards. -/
def hasUploaded (r : Replicate) : Bool :=
  r.status == .resultUploaded || r.isLostAfter .resultUploaded

end Replicate

/-! ## Persisted form -/

open Json in
instance : Persistent Details where
  encode d := .obj <|
    optionalField "chain_receipt_block_number" d.receiptBlock ++
    optionalField "exit_code" d.exitCode ++
    optionalField "tee_session_generation_error" d.teeError ++
    optionalField "result_hash" d.resultHash
  decode? v := do
    let fields ← v.fields?
      ["chain_receipt_block_number", "exit_code", "tee_session_generation_error", "result_hash"]
    return {
      receiptBlock := ← optional? fields "chain_receipt_block_number"
      exitCode := ← optional? fields "exit_code"
      teeError := ← optional? fields "tee_session_generation_error"
      resultHash := ← optional? fields "result_hash" }

open Json in
instance : Persistent StatusUpdate where
  encode u := .obj <|
    field "status" u.status ++ field "modifier" u.modifier ++ field "date" u.date ++
    optionalField "details" u.details
  decode? v := do
    let fields ← v.fields? ["status", "modifier", "date", "details"]
    return {
      status := ← required? fields "status"
      modifier := ← required? fields "modifier"
      date := ← required? fields "date"
      details := ← optional? fields "details" }

open Json in
instance : Persistent Replicate where
  encode r := .obj <|
    field "chain_task_id" r.chainTaskId ++ field "wallet_address" r.wallet ++
    field "current_status" r.status ++ field "status_update_list" r.history ++
    optionalField "contribution_hash" r.contributionHash ++
    optionalField "result_link" r.resultLink
  decode? v := do
    let fields ← v.fields? ["chain_task_id", "wallet_address", "current_status",
      "status_update_list", "contribution_hash", "result_link"]
    return {
      chainTaskId := ← required? fields "chain_task_id"
      wallet := ← required? fields "wallet_address"
      status := ← required? fields "current_status"
      history := ← required? fields "status_update_list"
      contributionHash := ← optional? fields "contribution_hash"
      resultLink := ← optional? fields "result_link" }

end ComputePool
