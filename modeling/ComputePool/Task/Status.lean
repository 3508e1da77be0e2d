import ComputePool.Json.Persistent

/-!
# Task statuses

The statuses of a task in the order of progress, and the phases that group them.
-/

namespace ComputePool

/-- Where a task stands. -/
inductive TaskStatus where
  | received
  | initializing
  | initialized
  | running
  | consensusReached
  | contributionTimeout
  | revealing
  | resultUploadRequested
  | resultUploading
  | resultUploaded
  | finalizing
  | finalized
  | completed
  | failed
deriving DecidableEq, Repr, Inhabited

/-- A coarse stage of a task's life. -/
inductive TaskPhase where
  | contribution
  | reveal
  | resultUpload
  | completion
deriving DecidableEq, Repr

namespace TaskStatus

/-- The place of a status in the order of progress. -/
def rank : TaskStatus → Nat
  | received => 0
  | initializing => 1
  | initialized => 2
  | running => 3
  | consensusReached => 4
  | contributionTimeout => 5
  | revealing => 6
  | resultUploadRequested => 7
  | resultUploading => 8
  | resultUploaded => 9
  | finalizing => 10
  | finalized => 11
  | completed => 12
  | failed => 13

instance : LE TaskStatus := ⟨fun a b => a.rank ≤ b.rank⟩

instance : LT TaskStatus := ⟨fun a b => a.rank < b.rank⟩

instance (a b : TaskStatus) : Decidable (a ≤ b) := Nat.decLe a.rank b.rank

instance (a b : TaskStatus) : Decidable (a < b) := Nat.decLt a.rank b.rank

instance : Ord TaskStatus := ⟨fun a b => compare a.rank b.rank⟩

/-- Statuses of one rank are equal. -/
theorem rank_inj {a b : TaskStatus} (h : a.rank = b.rank) : a = b := by
  revert h; cases a <;> cases b <;> decide

theorem eq_iff_rank {a b : TaskStatus} : a = b ↔ a.rank = b.rank := ⟨congrArg _, rank_inj⟩

theorem lt_iff_rank {a b : TaskStatus} : a < b ↔ a.rank < b.rank := Iff.rfl

instance : Named TaskStatus where
  all := [received, initializing, initialized, running, consensusReached, contributionTimeout,
    revealing, resultUploadRequested, resultUploading, resultUploaded, finalizing, finalized,
    completed, failed]
  name
    | received => "RECEIVED"
    | initializing => "INITIALIZING"
    | initialized => "INITIALIZED"
    | running => "RUNNING"
    | consensusReached => "CONSENSUS_REACHED"
    | contributionTimeout => "CONTRIBUTION_TIMEOUT"
    | revealing => "REVEALING"
    | resultUploadRequested => "RESULT_UPLOAD_REQUESTED"
    | resultUploading => "RESULT_UPLOADING"
    | resultUploaded => "RESULT_UPLOADED"
    | finalizing => "FINALIZING"
    | finalized => "FINALIZED"
    | completed => "COMPLETED"
    | failed => "FAILED"

/-- The phase of a status, if it belongs to one. -/
def phase? : TaskStatus → Option TaskPhase
  | initialized | running => some .contribution
  | consensusReached | revealing => some .reveal
  | resultUploadRequested | resultUploading => some .resultUpload
  | resultUploaded | finalizing | finalized | completed => some .completion
  | received | initializing | contributionTimeout | failed => none

/-- No transition leaves the status. -/
def isTerminal : TaskStatus → Bool
  | completed | failed => true
  | _ => false

/-- The statuses that are not terminal, in the order of progress. -/
def unfinished : List TaskStatus :=
  (Named.all : List TaskStatus).filter fun s => !s.isTerminal

/-- The task may take in workers. -/
def isOpen : TaskStatus → Bool
  | initialized | running => true
  | _ => false

/-- The participants of a task in this status hold no computing slot for it. -/
def freesWorkers : TaskStatus → Bool
  | completed | failed | contributionTimeout => true
  | _ => false

end TaskStatus

instance : Named TaskPhase where
  all := [.contribution, .reveal, .resultUpload, .completion]
  name
    | .contribution => "contribution"
    | .reveal => "reveal"
    | .resultUpload => "result_upload"
    | .completion => "completion"

end ComputePool
