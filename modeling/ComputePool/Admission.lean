import ComputePool.Collaborators

/-!
# Admission

How a worker that asks for work is matched with a task. The open tasks are tried from the best one
on; the first that takes the worker is its task. Whether a task takes it is decided under the
task's lock, which is not waited for, so that two workers never get the same last place.
-/

namespace ComputePool

variable {m : Type → Type} [Monad m] [Collaborators m]

/-- The replicate list takes the worker, as far as the list itself goes. -/
def admits (t : Task) (wallet : String) (l : ReplicateList) : Bool :=
  !l.hasWorker wallet && l.needsMore t.trust

/-- Adds a replicate of the worker to the list that was read, and records the work. If the record
fails the replicate is removed again. -/
def enrol (t : Task) (wallet : String) (l : ReplicateList) : Fallible m Bool := do
  match ← certain (Collaborators.addReplicate l wallet) with
  | .error (.duplicate ..) => return false
  | .error e => throw (.store e)
  | .ok _ =>
    match ← certain (Collaborators.addWork wallet t.chainTaskId) with
    | .ok () => return true
    | .error e =>
      let _ ← certain (Collaborators.removeReplicate t.chainTaskId wallet)
      throw (.store e)

/-- Decides under the task's lock, on a list read under it. -/
def decideLocked (t : Task) (wallet : String) : Fallible m Bool := do
  match ← stored (Collaborators.getList t.chainTaskId) with
  | none => return false
  | some l =>
    if !admits t wallet l then return false
    if ← certain (isConsensusReached l) then return false
    enrol t wallet l

/-- Admits the worker into the task, or not. A worker that the policy does not let join is removed
from the registry. -/
def acceptOrReject (t : Task) (wallet : String) : Fallible m Bool := do
  if !(← stored (Collaborators.isAllowedToJoin wallet)) then
    let _ ← stored (Collaborators.removeWorker wallet)
    return false
  if !t.hasEnclaveChallenge then return false
  match ← stored (Collaborators.getList t.chainTaskId) with
  | none => return false
  | some l =>
    if l.hasWorker wallet then return false
    match ← certain (Collaborators.tryLock t.chainTaskId) with
    | none => return false
    | some ticket =>
      let outcome ← certain (decideLocked t wallet).run
      certain (Collaborators.unlock ticket)
      ExceptT.mk (pure outcome)

/-- Tries to let the worker in at most so many times, as long as the list changes meanwhile. Any
other error counts as a refusal. -/
def admitRepeatedly (t : Task) (wallet : String) : (attempts : Nat) → m Bool
  | 0 => return false
  | attempts + 1 => do
    match ← (acceptOrReject t wallet).run with
    | .ok accepted => return accepted
    | .error e => if e.isConflict then admitRepeatedly t wallet attempts else return false

/-- Tries the open tasks, the best first, until one takes the worker. -/
def scan (w : Worker) (wallet : String) (attempts : Nat) :
    (rounds : Nat) → (scanned : List String) → Fallible m (Option Authorization)
  | 0, _ => return none
  | rounds + 1, scanned => do
    match ← stored (Collaborators.bestOpenTask (!w.teeEnabled) scanned) with
    | none => return none
    | some t =>
      if ← certain (admitRepeatedly t wallet attempts) then
        return some (← certain (Collaborators.authorize wallet t.chainTaskId t.enclaveChallenge))
      else scan w wallet attempts rounds (scanned ++ [t.chainTaskId])

/-- Finds a task for a worker that asks for work, admits the worker into it, and signs its
authorization. A worker that is unknown, busy, short of gas, or has seen no block gets none. -/
def findAuthorization (lastBlock : UInt64) (wallet : String) :
    Fallible m (Option Authorization) := do
  if !(← stored (Collaborators.canAcceptMoreWork wallet)) then return none
  if lastBlock = 0 then return none
  if !(← stored (Collaborators.hasEnoughGas wallet)) then return none
  match ← stored (Collaborators.getWorker wallet) with
  | none => return none
  | some w =>
    scan w wallet (← certain Collaborators.maxAttempts) (← certain Collaborators.scanBound) []

end ComputePool
