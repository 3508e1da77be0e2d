import ComputePool.Collaborators

/-!
# Running services on a pool

A service is a sequence of calls. On a plain pool its run is a function: `perform` gives what a
computation answers and the pool it leaves, `attempt` does so for a sequence that ends at the
first failure. The laws here take a run apart call by call:

* `attempt_bind_ok`, `attempt_bind_error`: a sequence goes on after a first part that succeeded,
  and ends with a first part that failed.
* `perform_getTask` and its kin: what each call answers, and what it leaves.

After these nobody looks into the monad any more.
-/

namespace ComputePool.Pool

variable {α β : Type} (p : Pool)

/-- What a computation answers on a pool, and the pool that it leaves. -/
def perform (x : StateM Pool α) : α × Pool := x p

/-- What a sequence of calls answers on a pool, and the pool that it leaves. -/
def attempt (x : Fallible (StateM Pool) α) : Except PoolError α × Pool := p.perform x.run

/-! ## Sequences -/

@[simp] theorem perform_pure (a : α) : p.perform (pure a) = (a, p) := rfl

/-- The second computation starts from the pool that the first one leaves. -/
@[simp] theorem perform_bind (x : StateM Pool α) (f : α → StateM Pool β) :
    p.perform (x >>= f) = (p.perform x).2.perform (f (p.perform x).1) := rfl

/-- A choice does not depend on the pool, so it may be made before the run. -/
theorem perform_ite (c : Prop) [Decidable c] (x y : StateM Pool α) :
    p.perform (if c then x else y) = if c then p.perform x else p.perform y := by
  by_cases h : c
  · rw [if_pos h, if_pos h]
  · rw [if_neg h, if_neg h]

/-- A sequence that may fail, taken as a computation, gives its outcome. -/
@[simp] theorem perform_run (x : Fallible (StateM Pool) α) : p.perform x.run = p.attempt x := rfl

/-- A computation of outcomes, taken as a sequence, is run as it is. -/
@[simp] theorem attempt_mk (x : StateM Pool (Except PoolError α)) :
    p.attempt (ExceptT.mk x) = p.perform x := rfl

@[simp] theorem attempt_pure (a : α) : p.attempt (pure a) = (.ok a, p) := rfl

/-- A failure leaves the pool as it is; nothing that was done is taken back. -/
@[simp] theorem attempt_throw (e : PoolError) :
    p.attempt (throw e : Fallible (StateM Pool) α) = (.error e, p) := rfl

/-- As for computations, a choice may be made before the run. -/
theorem attempt_ite (c : Prop) [Decidable c] (x y : Fallible (StateM Pool) α) :
    p.attempt (if c then x else y) = if c then p.attempt x else p.attempt y := by
  by_cases h : c
  · rw [if_pos h, if_pos h]
  · rw [if_neg h, if_neg h]

/-- A sequence goes on where its first part ended, or ends with its failure. -/
theorem attempt_bind (x : Fallible (StateM Pool) α) (f : α → Fallible (StateM Pool) β) :
    p.attempt (x >>= f) =
      match p.attempt x with
      | (.ok a, q) => q.attempt (f a)
      | (.error e, q) => (.error e, q) := by
  show p.perform (ExceptT.run x >>= ExceptT.bindCont f) = _
  rw [perform_bind]
  unfold attempt
  match p.perform x.run with
  | (.ok a, q) => rfl
  | (.error e, q) => rfl

variable {p} {q : Pool}

/-- After a first part that succeeded. -/
theorem attempt_bind_ok {x : Fallible (StateM Pool) α} {a : α}
    (h : p.attempt x = (.ok a, q)) (f : α → Fallible (StateM Pool) β) :
    p.attempt (x >>= f) = q.attempt (f a) := by
  rw [attempt_bind, h]

/-- After a first part that failed. -/
theorem attempt_bind_error {x : Fallible (StateM Pool) α} {e : PoolError}
    (h : p.attempt x = (.error e, q)) (f : α → Fallible (StateM Pool) β) :
    p.attempt (x >>= f) = (.error e, q) := by
  rw [attempt_bind, h]

variable (p)

/-- A call of which the sequence takes all outcomes is always a success. -/
@[simp] theorem attempt_certain (x : StateM Pool α) :
    p.attempt (certain x) = (.ok (p.perform x).1, (p.perform x).2) := rfl

/-- A call on the records hands its failure on as a failure of the records. -/
@[simp] theorem attempt_stored (x : StateM Pool (Except StoreError α)) :
    p.attempt (stored x) = ((p.perform x).1.mapError .store, (p.perform x).2) := rfl

/-- A call on the chain hands its failure on as a failure of the chain. -/
@[simp] theorem attempt_onChain (x : StateM Pool (Except ChainError α)) :
    p.attempt (onChain x) = ((p.perform x).1.mapError .chain, (p.perform x).2) := rfl

/-! ## Calls -/

@[simp] theorem perform_now : p.perform Collaborators.now = (p.now, p) := rfl

@[simp] theorem perform_getTask (id : String) :
    p.perform (Collaborators.getTask id) = (.ok (p.store.task? id), p) := rfl

@[simp] theorem perform_getTasks (ids : List String) :
    p.perform (Collaborators.getTasks ids) = (.ok (p.store.tasksOf ids), p) := rfl

@[simp] theorem perform_findTasks (statuses : List TaskStatus) :
    p.perform (Collaborators.findTasks statuses) = (.ok (p.store.tasksIn statuses), p) := rfl

/-- The best open task is chosen among the records as they are. -/
@[simp] theorem perform_bestOpenTask (excludeTee : Bool) (excluded : List String) :
    p.perform (Collaborators.bestOpenTask excludeTee excluded) =
      (.ok (p.store.bestOpenTask? excludeTee excluded), p) := rfl

@[simp] theorem perform_saveTask (t : Task) :
    p.perform (Collaborators.saveTask t) = p.saveTask t := rfl

/-- The scan is given one round more than there are tasks, since the last round finds none. -/
@[simp] theorem perform_scanBound :
    p.perform Collaborators.scanBound = (p.store.tasks.size + 1, p) := rfl

@[simp] theorem perform_createList (id : String) :
    p.perform (Collaborators.createList id) = p.createList id := rfl

@[simp] theorem perform_getList (id : String) :
    p.perform (Collaborators.getList id) = (.ok (p.store.list? id), p) := rfl

@[simp] theorem perform_getReplicate (id wallet : String) :
    p.perform (Collaborators.getReplicate id wallet) =
      (.ok (p.store.replicate? id wallet), p) := rfl

/-- A replicate is added to the list that was read, if the records still have that list. -/
@[simp] theorem perform_addReplicate (read : ReplicateList) (wallet : String) :
    p.perform (Collaborators.addReplicate read wallet) = p.addReplicate read wallet := rfl

/-- A report is written to the replicate of the wallet; where there is none the call succeeds with
nothing. -/
@[simp] theorem perform_updateReplicate (id wallet : String) (u : StatusUpdate) :
    p.perform (Collaborators.updateReplicate id wallet u) =
      (.ok (p.updateReplicate id wallet u).1, (p.updateReplicate id wallet u).2) := rfl

/-- The replicate of a wallet is taken out, and the answer says whether there was one. -/
@[simp] theorem perform_removeReplicate (id wallet : String) :
    p.perform (Collaborators.removeReplicate id wallet) =
      (.ok (p.removeReplicate id wallet).1, (p.removeReplicate id wallet).2) := rfl

@[simp] theorem perform_getWorker (wallet : String) :
    p.perform (Collaborators.getWorker wallet) = (.ok (p.registry.worker? wallet), p) := rfl

/-- Whether the worker is known and has a free slot is read off the registry. -/
@[simp] theorem perform_canAcceptMoreWork (wallet : String) :
    p.perform (Collaborators.canAcceptMoreWork wallet) =
      (.ok (p.registry.canAccept wallet), p) := rfl

/-- The policy is asked whether the worker may join. -/
@[simp] theorem perform_isAllowedToJoin (wallet : String) :
    p.perform (Collaborators.isAllowedToJoin wallet) = (.ok (p.registry.isAllowed wallet), p) := rfl

@[simp] theorem perform_hasEnoughGas (wallet : String) :
    p.perform (Collaborators.hasEnoughGas wallet) = (.ok (p.registry.hasEnoughGas wallet), p) := rfl

/-- A worker is taken out of the registry, with its slots. -/
@[simp] theorem perform_removeWorker (wallet : String) :
    p.perform (Collaborators.removeWorker wallet) =
      (.ok (p.removeWorker wallet).1, (p.removeWorker wallet).2) := rfl

/-- The work is recorded with the worker, which takes a slot for it. -/
@[simp] theorem perform_addWork (wallet id : String) :
    p.perform (Collaborators.addWork wallet id) = p.addWork wallet id := rfl

/-- The slot that the worker has for the task is given back. -/
@[simp] theorem perform_endWork (wallet id : String) :
    p.perform (Collaborators.endWork wallet id) = p.endWork wallet id := rfl

@[simp] theorem perform_workIds (wallet : String) :
    p.perform (Collaborators.workIds wallet) = (.ok (p.registry.taskIds wallet), p) := rfl

/-- The chain is asked for the task, as it sees it now. -/
@[simp] theorem perform_getChainTask (id : String) :
    p.perform (Collaborators.getChainTask id) = (.ok (p.chain.task? id), p) := rfl

/-- The chain is asked for the contribution of a wallet to a task. -/
@[simp] theorem perform_getContribution (id wallet : String) :
    p.perform (Collaborators.getContribution id wallet) =
      (.ok (p.chain.contribution? id wallet), p) := rfl

@[simp] theorem perform_isResultUploaded (id : String) :
    p.perform (Collaborators.isResultUploaded id) = (p.chain.isUploaded id, p) := rfl

/-- The signer authorizes a worker without a look at the records. -/
@[simp] theorem perform_authorize (wallet id enclaveChallenge : String) :
    p.perform (Collaborators.authorize wallet id enclaveChallenge) =
      (p.signer.authorize wallet id enclaveChallenge, p) := rfl

/-- The lock of a task is taken if it is free, and not waited for. -/
@[simp] theorem perform_tryLock (id : String) :
    p.perform (Collaborators.tryLock id) = p.tryLock id := rfl

/-- A lock is given back, and passes to whoever is next in line. -/
@[simp] theorem perform_unlock (t : Ticket) :
    p.perform (Collaborators.unlock t) = ((), p.unlock t) := rfl

@[simp] theorem perform_isQueued (id : String) :
    p.perform (Collaborators.isQueued id) = (p.queue.contains id, p) := rfl

@[simp] theorem perform_offer (t : Task) : p.perform (Collaborators.offer t) = p.offer t := rfl

/-- A number is drawn, and used up by that. -/
@[simp] theorem perform_draw (n : Nat) : p.perform (Collaborators.draw n) = p.draw n := rfl

@[simp] theorem perform_maxAttempts :
    p.perform Collaborators.maxAttempts = (p.maxAttempts, p) := rfl

/-! ## Requests and consensus -/

/-- The replicates of a list agree with what the chain says now about the task. -/
def hasConsensus (l : ReplicateList) : Bool := (p.chain.task? l.chainTaskId).any l.agreesWith

/-- The list is compared with the chain; a chain that does not know the task has no consensus. -/
@[simp] theorem perform_isConsensusReached (l : ReplicateList) :
    p.perform (isConsensusReached l) = (p.hasConsensus l, p) := by
  unfold isConsensusReached hasConsensus
  rw [perform_bind, perform_getChainTask]
  cases p.chain.task? l.chainTaskId with
  | none => rfl
  | some c => rfl

/-- Who takes requests for updates is the queue of the pool. -/
@[simp] theorem perform_publish (id : String) :
    p.perform (Publisher.publish id) = p.perform (publishRequest id) := rfl

/-- A request is queued for a task that is stored under an id that is not empty, and for which
none is queued. -/
theorem perform_publishRequest (id : String) :
    p.perform (publishRequest id) =
      if id.isEmpty then (false, p)
      else if p.queue.contains id then (false, p)
      else match p.store.task? id with
        | some t => p.offer t
        | none => (false, p) := by
  unfold publishRequest
  rw [perform_ite]
  refine ite_congr rfl (fun _ => rfl) fun _ => ?_
  rw [perform_bind, perform_isQueued, perform_ite]
  refine ite_congr rfl (fun _ => rfl) fun _ => ?_
  rw [perform_bind, perform_getTask]
  cases p.store.task? id with
  | none => rfl
  | some t => rfl

end ComputePool.Pool
