import ComputePool.Authorization

/-!
# Notifications

What a worker is told to do next for a task, and what it needs to know to do so.
-/

namespace ComputePool

/-- What to do next. -/
inductive Instruction where
  | contribute
  | reveal
  | upload
  | wait
  | abort
  | complete
deriving DecidableEq, Repr

instance : Named Instruction where
  all := [.contribute, .reveal, .upload, .wait, .abort, .complete]
  name
    | .contribute => "PLEASE_CONTRIBUTE"
    | .reveal => "PLEASE_REVEAL"
    | .upload => "PLEASE_UPLOAD"
    | .wait => "PLEASE_WAIT"
    | .abort => "PLEASE_ABORT"
    | .complete => "PLEASE_COMPLETE"

/-- Why a worker is told to abort. -/
inductive AbortCause where
  | contributionTimeout
  | consensusReached
  | unknown
deriving DecidableEq, Repr

instance : Named AbortCause where
  all := [.contributionTimeout, .consensusReached, .unknown]
  name
    | .contributionTimeout => "CONTRIBUTION_TIMEOUT"
    | .consensusReached => "CONSENSUS_REACHED"
    | .unknown => "UNKNOWN"

/-- What goes along with an instruction. -/
structure Extra where
  authorization : Option Authorization
  block : Option UInt64
  abortCause : Option AbortCause
deriving DecidableEq

/-- Nothing goes along. -/
def Extra.none : Extra := ⟨.none, .none, .none⟩

/-- An instruction for some workers of a task. -/
structure Notification where
  chainTaskId : String
  wallets : List String
  instruction : Instruction
  extra : Extra
deriving DecidableEq

/-- An instruction for a single worker. -/
def Notification.forWorker (chainTaskId wallet : String) (instruction : Instruction)
    (extra : Extra) : Notification :=
  ⟨chainTaskId, [wallet], instruction, extra⟩

/-! ## Persisted form -/

open Json in
instance : Persistent Extra where
  encode e := .obj <|
    optionalField "workerpool_authorization" e.authorization ++
    optionalField "block_number" e.block ++ optionalField "task_abort_cause" e.abortCause
  decode? v := do
    let fields ← v.fields? ["workerpool_authorization", "block_number", "task_abort_cause"]
    return {
      authorization := ← optional? fields "workerpool_authorization"
      block := ← optional? fields "block_number"
      abortCause := ← optional? fields "task_abort_cause" }

open Json in
instance : Persistent Notification where
  encode n := .obj <|
    field "chain_task_id" n.chainTaskId ++ field "workers_address" n.wallets ++
    field "task_notification_type" n.instruction ++ field "task_notification_extra" n.extra
  decode? v := do
    let fields ← v.fields? ["chain_task_id", "workers_address", "task_notification_type",
      "task_notification_extra"]
    return {
      chainTaskId := ← required? fields "chain_task_id"
      wallets := ← required? fields "workers_address"
      instruction := ← required? fields "task_notification_type"
      extra := ← required? fields "task_notification_extra" }

end ComputePool
