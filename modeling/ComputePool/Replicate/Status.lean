import ComputePool.Error
import ComputePool.Json.Persistent

/-!
# Replicate statuses

The statuses of a replicate. Those up to `completed` are in the order of progress, so that
"before contributing" is a comparison; the others are ends and markers.
-/

namespace ComputePool

/-- Where a replicate stands. -/
inductive ReplicateStatus where
  | created
  | contributing
  | contributed
  | revealing
  | revealed
  | resultUploadRequested
  | resultUploading
  | resultUploaded
  | completed
  | aborted
  | failed
  /-- The worker stopped answering and may come back. -/
  | workerLost
  /-- The mark that recovery leaves each time it tells the worker what to do. -/
  | recovering
  | error
deriving DecidableEq, Repr, Inhabited

namespace ReplicateStatus

/-- The place of a status in the declared order. -/
def rank : ReplicateStatus → Nat
  | created => 0
  | contributing => 1
  | contributed => 2
  | revealing => 3
  | revealed => 4
  | resultUploadRequested => 5
  | resultUploading => 6
  | resultUploaded => 7
  | completed => 8
  | aborted => 9
  | failed => 10
  | workerLost => 11
  | recovering => 12
  | error => 13

instance : LE ReplicateStatus := ⟨fun a b => a.rank ≤ b.rank⟩

instance : LT ReplicateStatus := ⟨fun a b => a.rank < b.rank⟩

instance (a b : ReplicateStatus) : Decidable (a ≤ b) := Nat.decLe a.rank b.rank

instance (a b : ReplicateStatus) : Decidable (a < b) := Nat.decLt a.rank b.rank

instance : Ord ReplicateStatus := ⟨fun a b => compare a.rank b.rank⟩

instance : Named ReplicateStatus where
  all := [created, contributing, contributed, revealing, revealed, resultUploadRequested,
    resultUploading, resultUploaded, completed, aborted, failed, workerLost, recovering, error]
  name
    | created => "CREATED"
    | contributing => "CONTRIBUTING"
    | contributed => "CONTRIBUTED"
    | revealing => "REVEALING"
    | revealed => "REVEALED"
    | resultUploadRequested => "RESULT_UPLOAD_REQUESTED"
    | resultUploading => "RESULT_UPLOADING"
    | resultUploaded => "RESULT_UPLOADED"
    | completed => "COMPLETED"
    | aborted => "ABORTED"
    | failed => "FAILED"
    | workerLost => "WORKER_LOST"
    | recovering => "RECOVERING"
    | error => "ERROR"

/-- The status of a name. -/
def ofName (s : String) : Except ReplicateError ReplicateStatus :=
  match Named.ofName? s with
  | some status => .ok status
  | none => .error (.unknownStatus s)

/-- The status says where the replicate stands; the passing marks do not. -/
def isRelevant : ReplicateStatus → Bool
  | workerLost | recovering => false
  | _ => true

/-- A worker may resume a replicate last seen in this status. -/
def isRecoverable : ReplicateStatus → Bool
  | completed | aborted | failed | error => false
  | _ => true

/-- A replicate in this status does not count towards the trust target. -/
def isDead : ReplicateStatus → Bool
  | error | workerLost => true
  | _ => false

end ReplicateStatus

end ComputePool
