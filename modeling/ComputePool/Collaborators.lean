import ComputePool.Consensus
import ComputePool.Pool

/-!
# Collaborators

The calls of which the services of the pool are made, as operations of a monad. A call on the
records or the chain may fail. `StateM Pool` is the plain meaning: the calls act on a pool, one
after the other, and fail only where the records refuse them. Another monad may fail more often,
or let something happen between two calls.
-/

namespace ComputePool

/-- The calls that services make. -/
class Collaborators (m : Type → Type) where
  now : m Instant
  -- tasks
  getTask (id : String) : m (Except StoreError (Option Task))
  getTasks (ids : List String) : m (Except StoreError (List Task))
  findTasks (statuses : List TaskStatus) : m (Except StoreError (List Task))
  bestOpenTask (excludeTee : Bool) (excluded : List String) : m (Except StoreError (Option Task))
  saveTask (t : Task) : m (Except StoreError Task)
  /-- At least the number of rounds in which an open task can be found. -/
  scanBound : m Nat
  -- replicates
  createList (id : String) : m (Except StoreError ReplicateList)
  getList (id : String) : m (Except StoreError (Option ReplicateList))
  getReplicate (id wallet : String) : m (Except StoreError (Option Replicate))
  addReplicate (read : ReplicateList) (wallet : String) : m (Except StoreError ReplicateList)
  updateReplicate (id wallet : String) (u : StatusUpdate) :
    m (Except StoreError (Option Replicate))
  removeReplicate (id wallet : String) : m (Except StoreError Bool)
  -- workers
  getWorker (wallet : String) : m (Except StoreError (Option Worker))
  canAcceptMoreWork (wallet : String) : m (Except StoreError Bool)
  isAllowedToJoin (wallet : String) : m (Except StoreError Bool)
  hasEnoughGas (wallet : String) : m (Except StoreError Bool)
  removeWorker (wallet : String) : m (Except StoreError (Option Worker))
  addWork (wallet id : String) : m (Except StoreError Unit)
  endWork (wallet id : String) : m (Except StoreError Unit)
  workIds (wallet : String) : m (Except StoreError (List String))
  -- chain
  getChainTask (id : String) : m (Except ChainError (Option ChainTask))
  getContribution (id wallet : String) : m (Except ChainError (Option Contribution))
  isResultUploaded (id : String) : m Bool
  authorize (wallet id enclaveChallenge : String) : m Authorization
  -- locks, queue and chance
  tryLock (id : String) : m (Option Ticket)
  unlock (t : Ticket) : m Unit
  isQueued (id : String) : m Bool
  offer (t : Task) : m Bool
  draw (n : Nat) : m Nat
  maxAttempts : m Nat

/-- The plain meaning of the calls. -/
instance : Collaborators (StateM Pool) where
  now := return (← get).now
  getTask id := return .ok ((← get).store.task? id)
  getTasks ids := return .ok ((← get).store.tasksOf ids)
  findTasks statuses := return .ok ((← get).store.tasksIn statuses)
  bestOpenTask excludeTee excluded :=
    return .ok ((← get).store.bestOpenTask? excludeTee excluded)
  saveTask t := modifyGet (Pool.saveTask t)
  scanBound := return (← get).store.tasks.size + 1
  createList id := modifyGet (Pool.createList id)
  getList id := return .ok ((← get).store.list? id)
  getReplicate id wallet := return .ok ((← get).store.replicate? id wallet)
  addReplicate read wallet := modifyGet (Pool.addReplicate read wallet)
  updateReplicate id wallet u := return .ok (← modifyGet (Pool.updateReplicate id wallet u))
  removeReplicate id wallet := return .ok (← modifyGet (Pool.removeReplicate id wallet))
  getWorker wallet := return .ok ((← get).registry.worker? wallet)
  canAcceptMoreWork wallet := return .ok ((← get).registry.canAccept wallet)
  isAllowedToJoin wallet := return .ok ((← get).registry.isAllowed wallet)
  hasEnoughGas wallet := return .ok ((← get).registry.hasEnoughGas wallet)
  removeWorker wallet := return .ok (← modifyGet (Pool.removeWorker wallet))
  addWork wallet id := modifyGet (Pool.addWork wallet id)
  endWork wallet id := modifyGet (Pool.endWork wallet id)
  workIds wallet := return .ok ((← get).registry.taskIds wallet)
  getChainTask id := return .ok ((← get).chain.task? id)
  getContribution id wallet := return .ok ((← get).chain.contribution? id wallet)
  isResultUploaded id := return (← get).chain.isUploaded id
  authorize wallet id enclaveChallenge :=
    return (← get).signer.authorize wallet id enclaveChallenge
  tryLock id := modifyGet (Pool.tryLock id)
  unlock t := modify (Pool.unlock t)
  isQueued id := return (← get).queue.contains id
  offer t := modifyGet (Pool.offer t)
  draw n := modifyGet (Pool.draw n)
  maxAttempts := return (← get).maxAttempts

/-! ## Calls that may fail, in sequence -/

/-- A sequence of calls that ends at the first failure. -/
abbrev Fallible (m : Type → Type) (α : Type) : Type := ExceptT PoolError m α

variable {m : Type → Type} [Monad m]

/-- A call within a sequence, with all its outcomes. -/
def certain {α : Type} (call : m α) : Fallible m α := ExceptT.lift call

/-- A call on the records; a failure ends the sequence. -/
def stored {α : Type} (call : m (Except StoreError α)) : Fallible m α :=
  ExceptT.mk do return (← call).mapError PoolError.store

/-- A call on the chain; a failure ends the sequence. -/
def onChain {α : Type} (call : m (Except ChainError α)) : Fallible m α :=
  ExceptT.mk do return (← call).mapError PoolError.chain

/-! ## Requests for updates -/

/-- Who takes requests for updates. -/
class Publisher (m : Type → Type) where
  /-- Asks for a task to be re-evaluated; true once the request is queued. -/
  publish (id : String) : m Bool

/-- Queues a request for a task. An empty id, an id already queued and an unknown task are
refused. -/
def publishRequest [Collaborators m] (id : String) : m Bool := do
  if id.isEmpty then return false
  if ← Collaborators.isQueued id then return false
  match ← Collaborators.getTask id with
  | .ok (some t) => Collaborators.offer t
  | .ok none | .error _ => return false

instance : Publisher (StateM Pool) := ⟨publishRequest⟩

/-! ## Consensus -/

/-- The list agrees with the chain on a consensus. A task that the chain does not know, or that
cannot be read, has none. -/
def isConsensusReached [Collaborators m] (l : ReplicateList) : m Bool := do
  match ← Collaborators.getChainTask l.chainTaskId with
  | .ok (some t) => return l.agreesWith t
  | .ok none | .error _ => return false

end ComputePool
