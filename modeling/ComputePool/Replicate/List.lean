import ComputePool.Replicate.Basic

/-!
# Replicate lists

All replicates of one task, with a version that counts the changes. Lookups take the first
replicate of a wallet. The counts and choices here are what consensus, admission and the task
transitions are decided on.
-/

namespace ComputePool

/-- The replicates of a task. -/
structure ReplicateList where
  chainTaskId : String
  /-- Counts the changes; an addition must name the version it read. -/
  version : Nat
  replicates : List Replicate
deriving DecidableEq, Inhabited

namespace ReplicateList

/-- The list of a task without replicates. -/
def empty (chainTaskId : String) : ReplicateList := ⟨chainTaskId, 0, []⟩

/-- The replicate of a wallet. -/
def find? (wallet : String) (l : ReplicateList) : Option Replicate :=
  l.replicates.find? (·.wallet == wallet)

/-- The wallet takes part in the task. -/
def hasWorker (wallet : String) (l : ReplicateList) : Bool := (l.find? wallet).isSome

/-- Applies `f` to the first element that satisfies `p`. -/
def modifyFirst {α : Type} (p : α → Bool) (f : α → α) : List α → List α
  | [] => []
  | a :: rest => if p a then f a :: rest else a :: modifyFirst p f rest

/-- Appends a status update to the replicate of a wallet. -/
def updateWorker (wallet : String) (u : StatusUpdate) (l : ReplicateList) : ReplicateList :=
  { l with replicates := modifyFirst (·.wallet == wallet) (·.updateStatus u) l.replicates }

/-! ## Counts -/

/-- The replicates that last contributed this hash. -/
def winnerCount (hash : String) (l : ReplicateList) : Nat :=
  l.replicates.countP fun r =>
    r.lastRelevant? == some .contributed && r.contributionHash == some hash

/-- The replicates in one of the statuses. -/
def currentCount (statuses : List ReplicateStatus) (l : ReplicateList) : Nat :=
  l.replicates.countP fun r => statuses.contains r.status

/-- The replicates whose last relevant status is one of the statuses. -/
def relevantCount (statuses : List ReplicateStatus) (l : ReplicateList) : Nat :=
  l.replicates.countP fun r => r.lastRelevant?.any statuses.contains

/-- The wallets, each counted once, of replicates that ever had one of the statuses. -/
def reachedCount (statuses : List ReplicateStatus) (l : ReplicateList) : Nat :=
  ((l.replicates.filter fun r => statuses.any r.reached).map (·.wallet)).eraseDups.length

/-- The replicates that count towards the trust target. -/
def aliveCount (l : ReplicateList) : Nat := l.replicates.countP Replicate.isAlive

/-! ## Choices -/

/-- The replicates among which the uploader is chosen. -/
def uploadCandidates (l : ReplicateList) : List Replicate :=
  l.replicates.filter (·.status == .revealed)

/-- The replicate that is already asked to upload the result. -/
def requestedUploader? (l : ReplicateList) : Option Replicate :=
  l.replicates.find? (·.lastRelevant? == some .resultUploadRequested)

/-- A replicate whose worker uploaded the result. -/
def uploaded? (l : ReplicateList) : Option Replicate := l.replicates.find? Replicate.hasUploaded

/-- Some replicate has begun and not finished. -/
def isStarted (l : ReplicateList) : Bool :=
  l.replicates.any fun r => r.lastRelevant?.any fun s => .contributing ≤ s && s < .completed

end ReplicateList

open Json in
instance : Persistent ReplicateList where
  encode l := .obj <|
    field "chain_task_id" l.chainTaskId ++ field "version" l.version ++
    field "replicates" l.replicates
  decode? v := do
    let fields ← v.fields? ["chain_task_id", "version", "replicates"]
    return {
      chainTaskId := ← required? fields "chain_task_id"
      version := ← required? fields "version"
      replicates := ← required? fields "replicates" }

end ComputePool
