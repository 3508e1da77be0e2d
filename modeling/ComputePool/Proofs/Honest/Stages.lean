import ComputePool.Proofs.Participants
import ComputePool.Proofs.Recovery.Reveal

/-!
# The stages of an honest run

A task is carried from its activation to its completion by a crew of as many workers as it trusts,
all of which do what they are asked for (`Venture`). The run has stages (`Stage`): in each of them
the chain says one thing, the workers make certain reports and no others, and the task and its
replicates have one of a few statuses.

Where the workers are honest (`Venture.Honest`), the status of a replicate says how far it got, and
the counts and searches in its list come to what the statuses say.
-/

namespace ComputePool

/-- What an honest run is to come to. -/
structure Venture where
  /-- The task. -/
  id : String
  /-- The wallets that carry it out. -/
  crew : List String
  /-- The result hash on which they agree. -/
  hash : String
  /-- The block at which revealing begins. -/
  block : UInt64
  named : id ≠ ""
  distinct : crew.Nodup
  manned : crew ≠ []

/-- A stage of an honest run. -/
inductive Stage where
  /-- The chain has just activated the task. -/
  | opening
  /-- Workers join and contribute. -/
  | contributing
  /-- The chain has the consensus that all contributed, and the pool does not know yet. -/
  | agreed
  /-- Workers reveal. -/
  | revealing
  /-- A worker revealed, and the pool does not know yet. -/
  | revealed
  /-- A worker was asked to upload the result, and does. -/
  | uploading
  /-- The result is there, and the pool does not know yet. -/
  | delivered
  /-- The chain is to complete the task. -/
  | uploaded
  /-- The chain completed the task, and the pool does not know yet. -/
  | paid
  | closed
deriving DecidableEq

namespace Stage

/-- The statuses that the task may have. -/
def statuses : Stage → List TaskStatus
  | opening => [.received, .initializing, .initialized]
  | contributing => [.initialized, .running]
  | agreed => [.initialized, .running, .consensusReached]
  | revealing => [.consensusReached]
  | revealed => [.consensusReached, .revealing, .resultUploadRequested]
  | uploading => [.resultUploadRequested, .resultUploading]
  | delivered => [.resultUploadRequested, .resultUploading, .resultUploaded]
  | uploaded => [.resultUploaded]
  | paid => [.resultUploaded, .finalizing, .finalized, .completed]
  | closed => [.completed]

/-- The statuses that the replicates may have. -/
def standings : Stage → List ReplicateStatus
  | opening => []
  | contributing => [.created, .contributing, .contributed]
  | agreed => [.contributed]
  | revealing => [.contributed, .revealing]
  | revealed => [.contributed, .revealing, .revealed, .resultUploadRequested]
  | uploading =>
    [.contributed, .revealing, .revealed, .resultUploadRequested, .resultUploading]
  | delivered | uploaded | paid | closed => [.contributed, .revealing, .revealed, .resultUploaded]

/-- How the chain sees the task. -/
def chainStatus : Stage → ChainTaskStatus
  | opening | contributing => .active
  | paid | closed => .completed
  | _ => .revealing

/-- The pool has not seen the consensus yet. -/
def isOpen : Stage → Bool
  | opening | contributing | agreed => true
  | _ => false

/-- All of the crew are there. -/
def isFull : Stage → Bool
  | opening | contributing => false
  | _ => true

/-- The stage is over only when somebody outside goes on. -/
def isWaiting : Stage → Bool
  | contributing | uploading => true
  | _ => false

/-- The moves that the task makes, from one status to the next. -/
def moves : Stage → List (TaskStatus × TaskStatus)
  | opening => [(.received, .initializing), (.initializing, .initialized)]
  | contributing => [(.initialized, .running)]
  | agreed => [(.initialized, .running), (.running, .consensusReached)]
  | revealed => [(.consensusReached, .revealing), (.revealing, .resultUploadRequested)]
  | uploading => [(.resultUploadRequested, .resultUploading)]
  | delivered =>
    [(.resultUploadRequested, .resultUploaded), (.resultUploading, .resultUploaded)]
  | paid => [(.resultUploaded, .finalizing), (.finalizing, .finalized), (.finalized, .completed)]
  | revealing | uploaded | closed => []

/-- The reports that workers make: the status in which a worker is, and the one that it reports. -/
def reports : Stage → List (ReplicateStatus × ReplicateStatus)
  | opening | agreed => []
  | contributing => [(.created, .contributing), (.contributing, .contributed)]
  | uploading => [(.contributed, .revealing), (.revealing, .revealed),
      (.resultUploadRequested, .resultUploading), (.resultUploading, .resultUploaded)]
  | _ => [(.contributed, .revealing), (.revealing, .revealed)]

/-- The stage after a round of the pool. -/
def afterRound : Stage → Stage
  | opening => contributing
  | agreed => revealing
  | revealed => uploading
  | delivered => uploaded
  | paid => closed
  | s => s

/-- The stage after a report. -/
def afterReport : Stage → ReplicateStatus → Stage
  | revealing, .revealed => revealed
  | uploading, .resultUploaded => delivered
  | s, _ => s

/-- Moves go on to another status of the stage, and take each of the steps that matter. -/
theorem of_mem_moves {s : Stage} {a b : TaskStatus} (h : (a, b) ∈ s.moves) :
    b ∈ s.statuses ∧ a < b ∧ (.initialized ≤ b → .initialized ≤ a ∨ b = .initialized) ∧
      (.consensusReached ≤ b → .consensusReached ≤ a ∨ b = .consensusReached ∧ s = .agreed) ∧
      (.resultUploadRequested ≤ b → .resultUploadRequested ≤ a ∨ b = .resultUploadRequested) := by
  have hall : ∀ m ∈ s.moves, m.2 ∈ s.statuses ∧ m.1 < m.2 ∧
      (.initialized ≤ m.2 → .initialized ≤ m.1 ∨ m.2 = .initialized) ∧
      (.consensusReached ≤ m.2 → .consensusReached ≤ m.1 ∨ m.2 = .consensusReached ∧ s = .agreed) ∧
      (.resultUploadRequested ≤ m.2 →
        .resultUploadRequested ≤ m.1 ∨ m.2 = .resultUploadRequested) := by
    cases s <;> decide
  exact hall (a, b) h

/-- A report keeps most of what the stage says. -/
theorem afterReport_eq {s : Stage} {b : ReplicateStatus} :
    (s.afterReport b).chainStatus = s.chainStatus ∧ (s.afterReport b).isOpen = s.isOpen ∧
      (s.afterReport b).isFull = s.isFull ∧ s.statuses ⊆ (s.afterReport b).statuses := by
  unfold afterReport
  split
  · decide
  · decide
  · exact ⟨rfl, rfl, rfl, List.Subset.refl _⟩

/-- Reports go on to another status, and to one that is asked for only from one that is. Where the
stage changes, the statuses that it no longer allows are asked for as well. -/
theorem of_mem_reports {s : Stage} {a b : ReplicateStatus} (h : (a, b) ∈ s.reports) :
    a < b ∧ b ≤ .resultUploaded ∧ (.revealed ≤ b → b = .revealed ∨ .revealed ≤ a) ∧
      (b ≤ .contributed → s = .contributing) ∧
      (.resultUploadRequested ≤ a ↔ .resultUploadRequested ≤ b) ∧
      b ∈ (s.afterReport b).standings ∧
      (∀ c ∈ s.standings, c ∈ (s.afterReport b).standings ∨
        .resultUploadRequested ≤ c ∧ .resultUploadRequested ≤ b) ∧
      (s.afterReport b = .revealed → s = .revealed ∨ .revealed ≤ b) := by
  have hall : ∀ m ∈ s.reports, m.1 < m.2 ∧ m.2 ≤ .resultUploaded ∧
      (.revealed ≤ m.2 → m.2 = .revealed ∨ .revealed ≤ m.1) ∧
      (m.2 ≤ .contributed → s = .contributing) ∧
      (.resultUploadRequested ≤ m.1 ↔ .resultUploadRequested ≤ m.2) ∧
      m.2 ∈ (s.afterReport m.2).standings ∧
      (∀ c ∈ s.standings, c ∈ (s.afterReport m.2).standings ∨
        .resultUploadRequested ≤ c ∧ .resultUploadRequested ≤ m.2) ∧
      (s.afterReport m.2 = .revealed → s = .revealed ∨ .revealed ≤ m.2) := by
    cases s <;> decide
  exact hall (a, b) h

end Stage

/-! ## Honest replicates -/

/-- The statuses of the replicate came in order, none of them a mark or an end, no result was asked
for before the reveal, and the hash that was contributed is the one of the venture. -/
structure Venture.Honest (k : Venture) (r : Replicate) : Prop where
  last : r.lastRelevant? = some r.status
  passed : ∀ u ∈ r.history, u.status ≤ r.status
  active : r.status ≤ .resultUploaded
  revealed : .revealed ≤ r.status → r.reached .revealed = true
  hash : r.status ≤ .contributed →
    r.contributionHash = if r.status = .contributed then some k.hash else none

namespace Venture.Honest

variable {k : Venture} {r : Replicate} {s : ReplicateStatus}

theorem fresh (k : Venture) (now : Instant) (wallet id : String) :
    k.Honest (.fresh now wallet id) := by
  have hactive : ReplicateStatus.created ≤ .resultUploaded := by decide
  have hearly : ¬ ReplicateStatus.revealed ≤ .created := by decide
  refine ⟨rfl, fun u hu => ?_, hactive, fun hle => absurd hle hearly, fun _ => rfl⟩
  rw [List.mem_singleton.1 hu]
  exact Nat.le_refl _

/-- A report of a later status keeps a replicate honest. -/
theorem updateStatus (h : k.Honest r) {u : StatusUpdate} (hlater : r.status < u.status)
    (hactive : u.status ≤ .resultUploaded)
    (hrevealed : .revealed ≤ u.status → u.status = .revealed ∨ .revealed ≤ r.status)
    (hhash : u.status ≤ .contributed →
      u.resultHash? = if u.status = .contributed then some k.hash else none) :
    k.Honest (r.updateStatus u) := by
  have hrelevant : u.status.isRelevant = true := by
    revert hactive
    cases u.status <;> decide
  refine ⟨r.lastRelevant?_updateStatus hrelevant, fun v hv => ?_, hactive, fun hle => ?_,
    fun hearly => ?_⟩
  · rcases List.mem_append.1 hv with hv | hv
    · exact Nat.le_trans (h.passed v hv) (Nat.le_of_lt hlater)
    · rw [List.mem_singleton.1 hv]
      exact Nat.le_refl _
  · show (r.history ++ [u]).any (·.status == .revealed) = true
    rw [List.any_append, Bool.or_eq_true]
    rcases hrevealed hle with heq | hle
    · exact .inr (List.any_eq_true.2 ⟨u, List.mem_singleton.2 rfl, beq_iff_eq.2 heq⟩)
    · exact .inl (h.revealed hle)
  · have hearly : u.status ≤ .contributed := hearly
    have hbefore : r.status < .contributed := Nat.lt_of_lt_of_le hlater hearly
    have hnone := h.hash (Nat.le_of_lt hbefore)
    rw [if_neg fun heq => Nat.lt_irrefl _ (heq ▸ hbefore)] at hnone
    show r.contributionHash.or u.resultHash? = if u.status = .contributed then _ else _
    rw [hnone, Option.none_or]
    exact hhash hearly

theorem reached (h : k.Honest r) : r.reached r.status = true :=
  Replicate.reached_of_lastRelevant? h.last

/-- It did not get further than where it stands. -/
theorem not_reached (h : k.Honest r) (hlt : r.status < s) : r.reached s = false := by
  refine Bool.eq_false_iff.2 fun hreached => ?_
  obtain ⟨u, hu, hstatus⟩ := List.any_eq_true.1 hreached
  have hle := h.passed u hu
  rw [beq_iff_eq.1 hstatus] at hle
  exact absurd hlt (Nat.not_lt.2 hle)

/-- No worker is lost. -/
theorem hasUploaded (h : k.Honest r) : r.hasUploaded = (r.status == .resultUploaded) := by
  have hlost : r.isLostAfter .resultUploaded = false := by
    refine Bool.eq_false_iff.2 fun hlost => ?_
    unfold Replicate.isLostAfter at hlost
    split at hlost
    · next last before rest hhistory =>
      have hmem : last ∈ r.history := List.mem_reverse.1 (hhistory ▸ List.mem_cons_self)
      rw [Bool.and_eq_true, beq_iff_eq] at hlost
      have hle := Nat.le_trans (h.passed last hmem) h.active
      rw [hlost.1] at hle
      exact absurd hle (by decide)
    · exact absurd hlost (by simp)
  unfold Replicate.hasUploaded
  rw [hlost, Bool.or_false]

theorem isAlive (h : k.Honest r) : r.isAlive = true := by
  have hactive := h.active
  unfold Replicate.isAlive
  revert hactive
  cases r.status <;> decide

end Venture.Honest

/-! ## Lists of honest replicates -/

namespace ReplicateList

variable {l : ReplicateList} {k : Venture}

/-- Where all contributed the hash, all are counted. -/
theorem winnerCount_eq_length (h : ∀ r ∈ l.replicates, k.Honest r ∧ r.status = .contributed) :
    l.winnerCount k.hash = l.replicates.length := by
  unfold winnerCount
  refine List.countP_eq_length.2 fun r hr => ?_
  obtain ⟨hhonest, hstatus⟩ := h r hr
  have hhash := hhonest.hash (Nat.le_of_eq (congrArg _ hstatus))
  rw [if_pos hstatus] at hhash
  rw [hhonest.last, hstatus, hhash]
  simp

theorem requestedUploader?_eq_none
    (h : ∀ r ∈ l.replicates, k.Honest r ∧ r.status ≠ .resultUploadRequested) :
    l.requestedUploader? = none := by
  refine List.find?_eq_none.2 fun r hr => ?_
  obtain ⟨hhonest, hstatus⟩ := h r hr
  rw [hhonest.last]
  simpa using hstatus

theorem uploaded?_eq_none
    (h : ∀ r ∈ l.replicates, k.Honest r ∧ r.status ≠ .resultUploaded) : l.uploaded? = none := by
  refine List.find?_eq_none.2 fun r hr => ?_
  obtain ⟨hhonest, hstatus⟩ := h r hr
  rw [hhonest.hasUploaded]
  simpa using hstatus

theorem isSome_uploaded?_of_mem {r : Replicate} (hr : r ∈ l.replicates)
    (hstatus : r.status = .resultUploaded) : l.uploaded?.isSome = true := by
  refine List.find?_isSome.2 ⟨r, hr, ?_⟩
  unfold Replicate.hasUploaded
  rw [hstatus]
  rfl

theorem aliveCount_eq_length (h : ∀ r ∈ l.replicates, k.Honest r) :
    l.aliveCount = l.replicates.length :=
  List.countP_eq_length.2 fun r hr => (h r hr).isAlive

end ReplicateList

end ComputePool
