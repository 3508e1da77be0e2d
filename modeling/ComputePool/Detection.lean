import ComputePool.Collaborators

/-!
# Detection of missed updates

Detectors look for tasks that stand still although they could move, and publish them. They change
no task themselves. A pass gives the number of requests that were accepted.
-/

namespace ComputePool

/-- What a detector looks for. -/
inductive Detector where
  /-- Tasks that are initializing while the chain knows them. -/
  | initializedTask
  /-- Tasks that are finalizing while the chain completed them. -/
  | finalizedTask
  /-- Tasks that wait for their next transaction. -/
  | unstartedTransaction
  /-- Unfinished tasks past their final deadline. -/
  | finalDeadline
deriving DecidableEq, Repr

instance : Named Detector where
  all := [.initializedTask, .finalizedTask, .unstartedTransaction, .finalDeadline]
  name
    | .initializedTask => "initialized-task"
    | .finalizedTask => "finalized-task"
    | .unstartedTransaction => "unstarted-tx"
    | .finalDeadline => "final-deadline"

variable {m : Type → Type} [Monad m] [Collaborators m] [Publisher m]

/-- Publishes the tasks of a list that pass a test, and counts the accepted requests. -/
def publishWhere (test : Task → Fallible m Bool) : List Task → Fallible m Nat
  | [] => return 0
  | t :: rest => do
    let accepted ← if ← test t then certain (Publisher.publish t.chainTaskId) else pure false
    return (← publishWhere test rest) + accepted.toNat

/-- Publishes the tasks in one of the statuses that pass a test. -/
def publishIn (statuses : List TaskStatus) (test : Task → Fallible m Bool) : Fallible m Nat := do
  publishWhere test (← stored (Collaborators.findTasks statuses))

/-- The chain task of a task passes a test. -/
def chainTaskIs (p : ChainTask → Bool) (t : Task) : Fallible m Bool := do
  return (← onChain (Collaborators.getChainTask t.chainTaskId)).any p

/-- One pass of a detector. -/
def detect : Detector → Fallible m Nat
  | .initializedTask => publishIn [.initializing] (chainTaskIs (·.status != .unset))
  | .finalizedTask => publishIn [.finalizing] (chainTaskIs (·.status == .completed))
  | .unstartedTransaction => do
    let uploaded ← publishIn [.resultUploaded] fun _ => return true
    let received ← publishIn [.received] fun _ => return true
    return uploaded + received
  | .finalDeadline => publishIn TaskStatus.unfinished fun t =>
    return t.finalDeadlineReached (← certain Collaborators.now)

end ComputePool
