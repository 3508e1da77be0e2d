import ComputePool.Proofs.Records
import ComputePool.Transition
import Mathlib.Tactic.SplitIfs

/-!
# The transition that is due

Which transition of a task is due depends on the task, on the clock, on what the chain says about
the task, and on its replicate list; who is asked to upload the result depends on chance as well.
An `Outlook` is all of that for one task. From it follow, without any call,

* `next`: the status to which the task moves, if it moves,
* `moved`: the task once it moved,
* `listAfter`: its replicate list once it moved.

That the calls of `dueChange` come to the same is shown in `Transition.Due`. Everything here
speaks of one task and reads nothing else, which is why transitions of different tasks do not
disturb each other.

`TaskStatus.successors` is the table of moves, and `next_mem_successors` says that `next` stays
within it.
-/

namespace ComputePool

namespace TaskStatus

/-- The statuses to which a task may move. -/
def successors : TaskStatus → List TaskStatus
  | received => [initializing, failed]
  | initializing => [initialized, failed]
  | initialized => [running, contributionTimeout, failed]
  | running => [consensusReached, contributionTimeout, failed]
  | consensusReached => [revealing, failed]
  | contributionTimeout => [failed]
  | revealing => [resultUploadRequested, failed]
  | resultUploadRequested => [resultUploading, resultUploaded, failed]
  | resultUploading => [resultUploaded, failed]
  | resultUploaded => [finalizing, failed]
  | finalizing => [finalized, failed]
  | finalized => [completed, failed]
  | completed => []
  | failed => []

/-- Every move goes forward. -/
theorem lt_of_mem_successors {a b : TaskStatus} (h : b ∈ a.successors) : a < b := by
  revert h
  cases a <;> cases b <;> decide

/-- Every status that is not terminal may move to failed. -/
theorem failed_mem_successors {a : TaskStatus} (h : a.isTerminal = false) :
    failed ∈ a.successors := by
  revert h
  cases a <;> decide

/-- Nothing moves on from a terminal status. -/
theorem successors_of_isTerminal {a : TaskStatus} (h : a.isTerminal = true) :
    a.successors = [] := by
  revert h
  cases a <;> decide

/-- A status from which a task moves to one that frees no workers frees none either. -/
theorem freesWorkers_of_successor {a b : TaskStatus} (h : b ∈ a.successors)
    (hb : b.freesWorkers = false) : a.freesWorkers = false := by
  revert h hb
  cases a <;> cases b <;> decide

theorem not_freesWorkers_of_isOpen {s : TaskStatus} (h : s.isOpen = true) :
    (!s.freesWorkers) = true := by
  revert h
  cases s <;> decide

theorem not_isTerminal_of_isOpen {s : TaskStatus} (h : s.isOpen = true) :
    (!s.isTerminal) = true := by
  revert h
  cases s <;> decide

end TaskStatus

/-- What the transition of a task is decided on, besides the task. -/
structure Outlook where
  now : Instant
  /-- What the chain says about the task. -/
  chainTask : Option ChainTask
  list : Option ReplicateList
  /-- How the next draw falls. -/
  roll : Nat

/-- The outlook of a task in a pool. -/
def Pool.outlook (id : String) (p : Pool) : Outlook :=
  ⟨p.now, p.chain.task? id, p.store.list? id, p.rolls.headD 0⟩

namespace Outlook

variable (o : Outlook)

/-- The replicate list of a task, empty if there is none. -/
def listOf (t : Task) : ReplicateList := o.list.getD (.empty t.chainTaskId)

/-- The chain knows the task. -/
def isKnown : Bool := o.chainTask.any (·.status != .unset)

/-- The chain completed the task. -/
def isCompleted : Bool := o.chainTask.any (·.status == .completed)

/-- The replicates agree with the chain on a consensus. -/
def hasConsensus (t : Task) : Bool := o.chainTask.any (o.listOf t).agreesWith

/-- The task is past its final deadline, and could still fail. -/
def isOverdue (t : Task) : Bool := !t.status.isTerminal && t.finalDeadlineReached o.now

/-- The replicate that is chosen among the candidates. -/
def candidate? (t : Task) : Option Replicate :=
  (o.listOf t).uploadCandidates[o.roll % (o.listOf t).uploadCandidates.length]?

/-- The wallet that is newly asked to upload the result: none if one was asked before. -/
def asked? (t : Task) : Option String :=
  if ((o.listOf t).requestedUploader?).isSome then none else (o.candidate? t).map (·.wallet)

/-- The wallet that uploads the result: the one that was asked before, or one newly asked. -/
def uploader? (t : Task) : Option String :=
  ((o.listOf t).requestedUploader?.map (·.wallet)).or (o.asked? t)

/-- The status to which the task moves. -/
def next (t : Task) : Option TaskStatus :=
  if o.isOverdue t then some .failed
  else match t.status with
    | .received => if o.isKnown then some .initializing else none
    | .initializing => if o.isKnown then some .initialized else none
    | .initialized =>
      if o.hasConsensus t then some .running
      else if t.contributionDeadlineReached o.now then some .contributionTimeout
      else if (o.listOf t).isStarted then some .running
      else none
    | .running =>
      if o.hasConsensus t then some .consensusReached
      else if t.contributionDeadlineReached o.now then some .contributionTimeout
      else none
    | .consensusReached =>
      if (o.listOf t).reachedCount [.revealed] = 0 then none else some .revealing
    | .revealing => if (o.uploader? t).isSome then some .resultUploadRequested else none
    | .resultUploadRequested =>
      if ((o.listOf t).uploaded?).isSome then some .resultUploaded
      else if isUploading t (o.listOf t) then some .resultUploading
      else none
    | .resultUploading =>
      if ((o.listOf t).uploaded?).isSome then some .resultUploaded else none
    | .resultUploaded => if o.isCompleted then some .finalizing else none
    | .finalizing => if o.isCompleted then some .finalized else none
    | .finalized => if o.isCompleted then some .completed else none
    | .contributionTimeout | .completed | .failed => none

/-- The task with what it learns on the way to a status. -/
def amended (status : TaskStatus) (t : Task) : Task :=
  match status with
  | .initialized => withChallenge t
  | .consensusReached => withConsensus o.chainTask t
  | .resultUploadRequested => { t with uploader := o.uploader? t }
  | .resultUploaded => { t with resultLink := (o.listOf t).uploaded?.bind (·.resultLink) }
  | _ => t

/-- The task once it moved to a status. -/
def moved (status : TaskStatus) (t : Task) : Task := (o.amended status t).changeStatus o.now status

/-- The update by which a wallet is asked to upload the result. -/
def request : StatusUpdate := .byPool o.now .resultUploadRequested none

/-- The replicate list once the task moved to a status. -/
def listAfter (status : TaskStatus) (t : Task) : Option ReplicateList :=
  match status with
  | .initialized => some (o.listOf t)
  | .resultUploadRequested =>
    match o.asked? t with
    | none => o.list
    | some wallet => o.list.map (·.report wallet o.request)
  | _ => o.list

/-! ## Who uploads -/

/-- Somebody can be chosen unless there is nobody. -/
theorem isSome_candidate? (t : Task) :
    (o.candidate? t).isSome = !(o.listOf t).uploadCandidates.isEmpty := by
  unfold candidate?
  cases h : (o.listOf t).uploadCandidates with
  | nil => rfl
  | cons r rest =>
    have hlt : o.roll % (r :: rest).length < (r :: rest).length := Nat.mod_lt _ (Nat.succ_pos _)
    rw [List.getElem?_eq_getElem hlt]
    rfl

/-- There is somebody to ask if one was asked before or there is a candidate. -/
theorem isSome_uploader? (t : Task) :
    (o.uploader? t).isSome =
      ((o.listOf t).requestedUploader?.isSome || !(o.listOf t).uploadCandidates.isEmpty) := by
  unfold uploader? asked?
  cases (o.listOf t).requestedUploader? with
  | some r => rfl
  | none =>
    show ((o.candidate? t).map (·.wallet)).isSome = _
    rw [Option.isSome_map, isSome_candidate?]
    rfl

/-! ## Moves stay within the table -/

/-- A move is one that the statuses allow. -/
theorem next_mem_successors {t : Task} {s : TaskStatus} (h : o.next t = some s) :
    s ∈ t.status.successors := by
  unfold next at h
  split at h
  · next hover =>
    obtain rfl := Option.some.inj h
    unfold isOverdue at hover
    rw [Bool.and_eq_true, Bool.not_eq_true'] at hover
    exact TaskStatus.failed_mem_successors hover.1
  · cases hs : t.status with
    | contributionTimeout => rw [hs] at h; exact absurd h (by simp)
    | completed => rw [hs] at h; exact absurd h (by simp)
    | failed => rw [hs] at h; exact absurd h (by simp)
    | _ =>
      rw [hs] at h
      dsimp only at h
      -- each branch names a status of the table, or none
      split_ifs at h <;> (obtain rfl := Option.some.inj h) <;> decide

/-- A task in a terminal status moves no more. -/
theorem next_of_isTerminal {t : Task} (h : t.status.isTerminal = true) : o.next t = none := by
  rw [Option.eq_none_iff_forall_ne_some]
  intro s hs
  have hmem := o.next_mem_successors hs
  rw [TaskStatus.successors_of_isTerminal h] at hmem
  exact absurd hmem List.not_mem_nil

/-- A task times out if its contributions are due and there is no consensus on them. -/
theorem next_eq_contributionTimeout {t : Task} :
    o.next t = some .contributionTimeout ↔
      t.status.isOpen = true ∧ t.contributionDeadlineReached o.now = true ∧
        t.finalDeadlineReached o.now = false ∧ o.hasConsensus t = false := by
  by_cases hopen : t.status.isOpen = true
  · have hoverdue : o.isOverdue t = t.finalDeadlineReached o.now := by
      unfold isOverdue
      rw [TaskStatus.not_isTerminal_of_isOpen hopen, Bool.true_and]
    unfold next
    rw [hoverdue]
    -- both open statuses ask for a consensus, and then for the deadline
    cases hs : t.status with
    | initialized => dsimp only; split_ifs <;> simp [*, TaskStatus.isOpen]
    | running => dsimp only; split_ifs <;> simp [*, TaskStatus.isOpen]
    | _ => rw [hs] at hopen; exact absurd hopen (by decide)
  · refine iff_of_false (fun h => hopen ?_) fun h => hopen h.1
    have hmem := o.next_mem_successors h
    revert hmem
    cases t.status <;> decide

/-- A task moves to a consensus only if there is one. -/
theorem hasConsensus_of_next {t : Task} (h : o.next t = some .consensusReached) :
    o.hasConsensus t = true := by
  have hmem := o.next_mem_successors h
  have hrunning : t.status = .running := by
    revert hmem
    cases t.status <;> decide
  unfold next at h
  split at h
  · exact absurd h (by simp)
  · rw [hrunning] at h
    dsimp only at h
    split_ifs at h with hconsensus hdeadline
    · exact hconsensus
    · exact absurd h (by simp)

/-! ## What a move keeps -/

/-- What is filled in on a move is neither the id, nor the version, nor the history. -/
theorem amended_eq (status : TaskStatus) (t : Task) :
    (o.amended status t).chainTaskId = t.chainTaskId ∧
      (o.amended status t).version = t.version ∧ (o.amended status t).history = t.history := by
  unfold amended
  split
  · unfold withChallenge
    split <;> exact ⟨rfl, rfl, rfl⟩
  · unfold withConsensus
    split <;> exact ⟨rfl, rfl, rfl⟩
  · exact ⟨rfl, rfl, rfl⟩
  · exact ⟨rfl, rfl, rfl⟩
  · exact ⟨rfl, rfl, rfl⟩

@[simp] theorem moved_status (status : TaskStatus) (t : Task) :
    (o.moved status t).status = status := rfl

@[simp] theorem moved_chainTaskId (status : TaskStatus) (t : Task) :
    (o.moved status t).chainTaskId = t.chainTaskId := (o.amended_eq status t).1

@[simp] theorem moved_version (status : TaskStatus) (t : Task) :
    (o.moved status t).version = t.version := (o.amended_eq status t).2.1

/-- A move is recorded with its date. -/
@[simp] theorem moved_history (status : TaskStatus) (t : Task) :
    (o.moved status t).history = t.history ++ [⟨status, o.now⟩] :=
  congrArg (· ++ [_]) (o.amended_eq status t).2.2

/-- What was agreed on when the task was received is not changed by a move. -/
theorem moved_terms (status : TaskStatus) (t : Task) :
    (o.moved status t).trust = t.trust ∧ (o.moved status t).tee = t.tee ∧
      (o.moved status t).contributionDeadline = t.contributionDeadline ∧
      (o.moved status t).finalDeadline = t.finalDeadline := by
  show (o.amended status t).trust = t.trust ∧ (o.amended status t).tee = t.tee ∧
    (o.amended status t).contributionDeadline = t.contributionDeadline ∧
    (o.amended status t).finalDeadline = t.finalDeadline
  unfold amended
  split
  · unfold withChallenge
    split <;> exact ⟨rfl, rfl, rfl, rfl⟩
  · unfold withConsensus
    split <;> exact ⟨rfl, rfl, rfl, rfl⟩
  · exact ⟨rfl, rfl, rfl, rfl⟩
  · exact ⟨rfl, rfl, rfl, rfl⟩
  · exact ⟨rfl, rfl, rfl, rfl⟩

/-- Only the move to a consensus changes the consensus. -/
theorem moved_consensus {status : TaskStatus} (h : status ≠ .consensusReached) (t : Task) :
    (o.moved status t).consensus = t.consensus ∧
      (o.moved status t).consensusBlock = t.consensusBlock := by
  show (o.amended status t).consensus = t.consensus ∧
    (o.amended status t).consensusBlock = t.consensusBlock
  unfold amended
  split
  · unfold withChallenge
    split <;> exact ⟨rfl, rfl⟩
  · exact absurd rfl h
  · exact ⟨rfl, rfl⟩
  · exact ⟨rfl, rfl⟩
  · exact ⟨rfl, rfl⟩

/-- Only the move to a requested upload changes the uploader. -/
theorem moved_uploader {status : TaskStatus} (h : status ≠ .resultUploadRequested) (t : Task) :
    (o.moved status t).uploader = t.uploader := by
  show (o.amended status t).uploader = t.uploader
  unfold amended
  split
  · unfold withChallenge
    split <;> rfl
  · unfold withConsensus
    split <;> rfl
  · exact absurd rfl h
  · rfl
  · rfl

/-- A task keeps its challenge; one that runs outside an enclave has it once initialized. -/
theorem hasEnclaveChallenge_moved {status : TaskStatus} {t : Task}
    (h : t.hasEnclaveChallenge = true ∨ t.tee = false ∧ status = .initialized) :
    (o.moved status t).hasEnclaveChallenge = true := by
  rcases h with h | ⟨htee, rfl⟩
  · show (o.amended status t).hasEnclaveChallenge = true
    unfold amended
    split
    · unfold withChallenge
      split
      · rfl
      · exact h
    · unfold withConsensus
      split <;> exact h
    · exact h
    · exact h
    · exact h
  · show (withChallenge t).hasEnclaveChallenge = true
    unfold withChallenge
    split
    · rfl
    · next hneeds =>
      rw [htee, Bool.not_false, Bool.true_and, Bool.not_eq_true', Bool.not_eq_false] at hneeds
      exact hneeds

/-- The participants of a task stay the same when it moves. -/
theorem hasWorker_listAfter (status : TaskStatus) (t : Task) (wallet : String) :
    (o.listAfter status t).any (·.hasWorker wallet) = o.list.any (·.hasWorker wallet) := by
  unfold listAfter
  split
  · unfold listOf
    cases o.list with
    | none => rfl
    | some l => rfl
  · split
    · rfl
    · rw [Option.any_map]
      congr 1
      funext l
      exact l.hasWorker_report ..
  · rfl

/-- A task keeps its list, and has one once initialized. -/
theorem isSome_listAfter {status : TaskStatus} {t : Task}
    (h : o.list.isSome = true ∨ status = .initialized) : (o.listAfter status t).isSome = true := by
  unfold listAfter
  split
  · rfl
  · split
    · exact h.resolve_right (by decide)
    · rw [Option.isSome_map]
      exact h.resolve_right (by decide)
  · next hother _ => exact h.resolve_right hother

/-- A move makes no replicate a candidate. -/
theorem length_uploadCandidates_listAfter_le {n : Nat}
    (h : ∀ l, o.list = some l → l.uploadCandidates.length ≤ n) {status : TaskStatus} {t : Task}
    {l : ReplicateList} (hl : o.listAfter status t = some l) : l.uploadCandidates.length ≤ n := by
  unfold listAfter at hl
  split at hl
  · obtain rfl := Option.some.inj hl
    unfold listOf
    cases hlist : o.list with
    | none => exact Nat.zero_le n
    | some l => exact h l hlist
  · split at hl
    · exact h l hl
    · next wallet _ =>
      obtain ⟨before, hbefore, rfl⟩ := Option.map_eq_some_iff.1 hl
      have hstatus : o.request.status ≠ .revealed := ReplicateStatus.noConfusion
      exact Nat.le_trans (before.length_uploadCandidates_report_le wallet hstatus)
        (h before hbefore)
  · exact h l hl

end Outlook

end ComputePool
