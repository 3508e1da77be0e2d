import ComputePool.Error
import ComputePool.Task.Status
import ComputePool.Uuid

/-!
# Tasks

A task as the pool tracks it. Its status changes are kept with their dates; the current status is
stored beside them and is set by `changeStatus` alone. A fresh task's contribution deadline is ten
execution times away and its final deadline fifty.
-/

namespace ComputePool

/-- One entry of a task's status history. -/
structure StatusChange where
  status : TaskStatus
  date : Instant
deriving DecidableEq

/-- A task of the pool. -/
structure Task where
  id : Uuid
  /-- Counts the saves; a save must name the version it read. -/
  version : Nat
  chainTaskId : String
  dealId : String
  index : UInt32
  status : TaskStatus
  /-- Every status the task had, oldest first. -/
  history : List StatusChange
  /-- The number of valid contributions that make a consensus. -/
  trust : UInt32
  maxExecutionTime : Span
  /-- The task must run inside a trusted execution environment. -/
  tee : Bool
  /-- Empty until the task is initialized. -/
  enclaveChallenge : String
  contributionDeadline : Instant
  finalDeadline : Instant
  consensus : Option String
  consensusBlock : UInt64
  /-- The wallet of the worker that was asked to upload the result. -/
  uploader : Option String
  resultLink : Option String
deriving DecidableEq, Inhabited

/-- The enclave challenge of a task that does not run inside an enclave. -/
def emptyEnclaveChallenge : String := "0x0000000000000000000000000000000000000000"

instance : Persistent StatusChange where
  encode c := .obj (Json.field "status" c.status ++ Json.field "date" c.date)
  decode? v := do
    let fields ← v.fields? ["status", "date"]
    return ⟨← Json.required? fields "status", ← Json.required? fields "date"⟩

namespace Task

/-- The contribution deadline and the final deadline of a task received at `now`, if both are
instants. -/
def deadlines? (now : Instant) (maxExecutionTime : Span) : Option (Instant × Instant) := do
  let lifetime ← (← maxExecutionTime.scale? 10).toOffset?
  let contribution ← now.add? lifetime
  let final ← now.add? (← Span.scaleOffset? 5 lifetime)
  return (contribution, final)

/-- A task just received. -/
def fresh (id : Uuid) (now : Instant) (dealId : String) (index : UInt32) (chainTaskId : String)
    (trust : UInt32) (maxExecutionTime : Span) : Except TaskError Task :=
  match deadlines? now maxExecutionTime with
  | none => .error (.deadlineOutOfRange chainTaskId maxExecutionTime)
  | some (contribution, final) => .ok {
      id, version := 0, chainTaskId, dealId, index
      status := .received
      history := [⟨.received, now⟩]
      trust, maxExecutionTime
      tee := false
      enclaveChallenge := ""
      contributionDeadline := contribution
      finalDeadline := final
      consensus := none
      consensusBlock := 0
      uploader := none
      resultLink := none }

/-- Moves the task to a status, which is recorded in the history. -/
def changeStatus (now : Instant) (status : TaskStatus) (t : Task) : Task :=
  { t with status, history := t.history ++ [⟨status, now⟩] }

/-- The phase the task is in. -/
def phase? (t : Task) : Option TaskPhase := t.status.phase?

/-- The task can be handed to workers as far as its enclave challenge goes. -/
def hasEnclaveChallenge (t : Task) : Bool := !t.enclaveChallenge.isEmpty

/-- The contribution deadline is now or past. -/
def contributionDeadlineReached (now : Instant) (t : Task) : Bool := t.contributionDeadline ≤ now

/-- The final deadline is now or past. -/
def finalDeadlineReached (now : Instant) (t : Task) : Bool := t.finalDeadline ≤ now

/-- The names of the fields of a persisted task, in order. -/
def fieldNames : List String := [
  "id", "version", "chain_task_id", "chain_deal_id", "task_index", "current_status",
  "date_status_list", "trust", "max_execution_time", "tee", "enclave_challenge",
  "contribution_deadline", "final_deadline", "consensus", "consensus_reached_block_number",
  "uploading_worker_wallet_address", "result_link"]

open Json in
instance : Persistent Task where
  encode t := .obj <|
    field "id" t.id ++ field "version" t.version ++ field "chain_task_id" t.chainTaskId ++
    field "chain_deal_id" t.dealId ++ field "task_index" t.index ++
    field "current_status" t.status ++ field "date_status_list" t.history ++
    field "trust" t.trust ++ field "max_execution_time" t.maxExecutionTime ++
    field "tee" t.tee ++ field "enclave_challenge" t.enclaveChallenge ++
    field "contribution_deadline" t.contributionDeadline ++
    field "final_deadline" t.finalDeadline ++ optionalField "consensus" t.consensus ++
    field "consensus_reached_block_number" t.consensusBlock ++
    optionalField "uploading_worker_wallet_address" t.uploader ++
    optionalField "result_link" t.resultLink
  decode? v := do
    let fields ← v.fields? fieldNames
    return {
      id := ← required? fields "id"
      version := ← required? fields "version"
      chainTaskId := ← required? fields "chain_task_id"
      dealId := ← required? fields "chain_deal_id"
      index := ← required? fields "task_index"
      status := ← required? fields "current_status"
      history := ← required? fields "date_status_list"
      trust := ← required? fields "trust"
      maxExecutionTime := ← required? fields "max_execution_time"
      tee := ← required? fields "tee"
      enclaveChallenge := ← required? fields "enclave_challenge"
      contributionDeadline := ← required? fields "contribution_deadline"
      finalDeadline := ← required? fields "final_deadline"
      consensus := ← optional? fields "consensus"
      consensusBlock := ← required? fields "consensus_reached_block_number"
      uploader := ← optional? fields "uploading_worker_wallet_address"
      resultLink := ← optional? fields "result_link" }

end Task

end ComputePool
