import ComputePool.Json.Persistent
import ComputePool.Table

/-!
# The chain

What the chain says about tasks and contributions, and the repository to which workers upload
results. The pool only reads them.
-/

namespace ComputePool

/-- Where the chain sees a task. -/
inductive ChainTaskStatus where
  | unset
  | active
  | revealing
  | completed
  | failed
deriving DecidableEq, Repr

instance : Named ChainTaskStatus where
  all := [.unset, .active, .revealing, .completed, .failed]
  name
    | .unset => "UNSET"
    | .active => "ACTIVE"
    | .revealing => "REVEALING"
    | .completed => "COMPLETED"
    | .failed => "FAILED"

/-- A task as the chain sees it. -/
structure ChainTask where
  chainTaskId : String
  status : ChainTaskStatus
  /-- The number of contributions that match the consensus value. -/
  winnerCounter : UInt32
  /-- The hash agreed on, empty before there is one. -/
  consensusValue : String
  /-- The block at which revealing began, zero before. -/
  revealingBlock : UInt64
  contributionDeadline : Instant
  finalDeadline : Instant
deriving DecidableEq

/-- Where the chain sees a contribution. -/
inductive ContributionStatus where
  | unset
  | contributed
  /-- The contribution was revealed. -/
  | proved
  | rejected
deriving DecidableEq, Repr

instance : Named ContributionStatus where
  all := [.unset, .contributed, .proved, .rejected]
  name
    | .unset => "UNSET"
    | .contributed => "CONTRIBUTED"
    | .proved => "PROVED"
    | .rejected => "REJECTED"

/-- One worker's contribution to a task as the chain sees it. -/
structure Contribution where
  status : ContributionStatus
  resultHash : String
  resultSeal : String
  enclaveChallenge : String
deriving DecidableEq

/-- The contribution was made, and not rejected. -/
def Contribution.isContributed (c : Contribution) : Bool :=
  c.status == .contributed || c.status == .proved

/-- The contribution was revealed. -/
def Contribution.isRevealed (c : Contribution) : Bool := c.status == .proved

/-- The chain and the result repository. -/
structure Chain where
  tasks : Table String ChainTask
  /-- By task and wallet. -/
  contributions : Table (String × String) Contribution
  /-- The tasks whose result is in the repository. -/
  uploaded : List String

namespace Chain

/-- A chain on which nothing happened. -/
def empty : Chain := ⟨.empty, .empty, []⟩

/-- Sets what the chain says about a task. -/
def setTask (t : ChainTask) (c : Chain) : Chain :=
  { c with tasks := c.tasks.insert t.chainTaskId t }

/-- Sets what the chain says about a contribution. -/
def setContribution (chainTaskId wallet : String) (k : Contribution) (c : Chain) : Chain :=
  { c with contributions := c.contributions.insert (chainTaskId, wallet) k }

/-- Puts the result of a task into the repository. -/
def markUploaded (chainTaskId : String) (c : Chain) : Chain :=
  { c with uploaded := if c.uploaded.contains chainTaskId then c.uploaded
      else chainTaskId :: c.uploaded }

/-- What the chain says about a task. -/
def task? (chainTaskId : String) (c : Chain) : Option ChainTask := c.tasks.find? chainTaskId

/-- What the chain says about a contribution. -/
def contribution? (chainTaskId wallet : String) (c : Chain) : Option Contribution :=
  c.contributions.find? (chainTaskId, wallet)

/-- The result of the task is in the repository. -/
def isUploaded (chainTaskId : String) (c : Chain) : Bool := c.uploaded.contains chainTaskId

end Chain

/-! ## Persisted form -/

open Json in
instance : Persistent ChainTask where
  encode t := .obj <|
    field "chain_task_id" t.chainTaskId ++ field "status" t.status ++
    field "winner_counter" t.winnerCounter ++ field "consensus_value" t.consensusValue ++
    field "revealing_block_number" t.revealingBlock ++
    field "contribution_deadline" t.contributionDeadline ++
    field "final_deadline" t.finalDeadline
  decode? v := do
    let fields ← v.fields? ["chain_task_id", "status", "winner_counter", "consensus_value",
      "revealing_block_number", "contribution_deadline", "final_deadline"]
    return {
      chainTaskId := ← required? fields "chain_task_id"
      status := ← required? fields "status"
      winnerCounter := ← required? fields "winner_counter"
      consensusValue := ← required? fields "consensus_value"
      revealingBlock := ← required? fields "revealing_block_number"
      contributionDeadline := ← required? fields "contribution_deadline"
      finalDeadline := ← required? fields "final_deadline" }

open Json in
instance : Persistent Contribution where
  encode c := .obj <|
    field "status" c.status ++ field "result_hash" c.resultHash ++
    field "result_seal" c.resultSeal ++ field "enclave_challenge" c.enclaveChallenge
  decode? v := do
    let fields ← v.fields? ["status", "result_hash", "result_seal", "enclave_challenge"]
    return {
      status := ← required? fields "status"
      resultHash := ← required? fields "result_hash"
      resultSeal := ← required? fields "result_seal"
      enclaveChallenge := ← required? fields "enclave_challenge" }

end ComputePool
