import ComputePool.Proofs.Transition.Update
import ComputePool.Proofs.Uploader

/-!
# The transition table

Which move of a task is enabled, said without the calls: `Outlook.Row` has a line for each move of a
task in time, with its condition on the replicates and on what the chain says. A task that has not
ended by its final deadline fails, whatever its line says (`Outlook.Enabled`). The move that an
update makes is the one that is enabled (`Outlook.next_eq_some_iff`), so there is at most one.

What a move leaves is a frame around one task (`Pool.Moves`): the task itself, its list
(`Pool.ListMoves`) and the computing slots of the workers in it.
-/

namespace ComputePool

/-- The task without the choice of an uploader. -/
def Task.unassigned (t : Task) : Task := { t with uploader := none }

namespace Outlook

variable (o : Outlook)

/-- The replicates of the task. -/
def replicates : List Replicate := (o.list.map (·.replicates)).getD []

/-- The task has not ended, and its final deadline is now or past. -/
def Expired (t : Task) : Prop :=
  t.status ≠ .completed ∧ t.status ≠ .failed ∧ t.finalDeadline ≤ o.now

/-- The chain knows the task, and its status there is as required. -/
def OnChain (required : ChainTaskStatus → Prop) : Prop :=
  ∃ c, o.chainTask = some c ∧ required c.status

/-- The chain is revealing, and at least as many replicates stand at a contribution of its consensus
value as it counted winners. -/
def Agreed : Prop :=
  ∃ c, o.chainTask = some c ∧ c.status = .revealing ∧
    c.winnerCounter.toNat ≤ (o.replicates.filter fun r =>
      r.lastRelevant? = some .contributed ∧ r.contributionHash = some c.consensusValue).length

/-- Some replicate stands at a status from contributing on and before completed. -/
def Started : Prop :=
  ∃ r ∈ o.replicates, ∃ s, r.lastRelevant? = some s ∧ .contributing ≤ s ∧ s < .completed

/-- Some replicate revealed at some time. -/
def EverRevealed : Prop := ∃ r ∈ o.replicates, ∃ u ∈ r.history, u.status = .revealed

/-- Some replicate stands at the request to upload the result. -/
def Requested : Prop := ∃ r ∈ o.replicates, r.lastRelevant? = some .resultUploadRequested

/-- Some replicate has revealed and nothing since. -/
def Revealed : Prop := ∃ r ∈ o.replicates, r.status = .revealed

/-- Some replicate uploaded the result, or was lost right after it did. -/
def Uploaded : Prop := ∃ r ∈ o.replicates, r.hasUploaded = true

/-- The replicate that was chosen is uploading. -/
def Uploads (t : Task) : Prop :=
  ∃ r ∈ o.replicates, t.uploader = some r.wallet ∧ r.status = .resultUploading

/-- The moves of a task in time. Where two lines begin at one status, their conditions exclude each
other. -/
inductive Row (t : Task) : TaskStatus → TaskStatus → Prop where
  | initializing (known : o.OnChain (· ≠ .unset)) : Row t .received .initializing
  | initialized (known : o.OnChain (· ≠ .unset)) : Row t .initializing .initialized
  | run (agreed : o.Agreed) : Row t .initialized .running
  | start (unsettled : ¬ o.Agreed) (inTime : ¬ t.contributionDeadline ≤ o.now)
      (started : o.Started) : Row t .initialized .running
  | agree (agreed : o.Agreed) : Row t .running .consensusReached
  | timeOut {s : TaskStatus} (isOpen : s = .initialized ∨ s = .running) (unsettled : ¬ o.Agreed)
      (due : t.contributionDeadline ≤ o.now) : Row t s .contributionTimeout
  | reveal (revealed : o.EverRevealed) : Row t .consensusReached .revealing
  | request (uploader : o.Requested ∨ o.Revealed) : Row t .revealing .resultUploadRequested
  | upload (unfinished : ¬ o.Uploaded) (uploads : o.Uploads t) :
      Row t .resultUploadRequested .resultUploading
  | finishUpload {s : TaskStatus} (upload : s = .resultUploadRequested ∨ s = .resultUploading)
      (uploaded : o.Uploaded) : Row t s .resultUploaded
  | finalizing (completed : o.OnChain (· = .completed)) : Row t .resultUploaded .finalizing
  | finalized (completed : o.OnChain (· = .completed)) : Row t .finalizing .finalized
  | complete (completed : o.OnChain (· = .completed)) : Row t .finalized .completed

/-- The move of a task to a status is enabled. -/
def Enabled (t : Task) (status : TaskStatus) : Prop :=
  o.Expired t ∧ status = .failed ∨ ¬ o.Expired t ∧ o.Row t t.status status

variable {o} {t : Task} {s : TaskStatus}

/-! ## The conditions as the calls ask for them -/

theorem replicates_listOf (o : Outlook) (t : Task) : (o.listOf t).replicates = o.replicates := by
  unfold listOf replicates
  cases o.list <;> rfl

/-- The first test of an update is the rule about the final deadline. -/
theorem isOverdue_iff : o.isOverdue t = true ↔ o.Expired t := by
  have hended : (!t.status.isTerminal) = true ↔ t.status ≠ .completed ∧ t.status ≠ .failed := by
    cases t.status <;> decide
  unfold isOverdue Expired Task.finalDeadlineReached
  rw [Bool.and_eq_true, hended, decide_eq_true_iff, and_assoc]

/-- Initialization asks whether the chain knows the task. -/
theorem isKnown_iff : o.isKnown = true ↔ o.OnChain (· ≠ .unset) := by
  unfold isKnown OnChain
  simp only [Option.any_eq_true, bne_iff_ne]

/-- Completion asks whether the chain completed it. -/
theorem isCompleted_iff : o.isCompleted = true ↔ o.OnChain (· = .completed) := by
  unfold isCompleted OnChain
  simp only [Option.any_eq_true, beq_iff_eq]

/-- The consensus that is looked for is the one of the rule. -/
theorem hasConsensus_iff : o.hasConsensus t = true ↔ o.Agreed := by
  unfold hasConsensus Agreed ReplicateList.agreesWith ReplicateList.winnerCount
  simp only [Option.any_eq_true, Bool.and_eq_true, decide_eq_true_iff, replicates_listOf,
    List.countP_eq_length_filter, Bool.decide_and, beq_eq_decide]

/-- The task runs once somebody contributes or did more. -/
theorem isStarted_iff : (o.listOf t).isStarted = true ↔ o.Started := by
  unfold ReplicateList.isStarted Started
  simp only [List.any_eq_true, Option.any_eq_true, Bool.and_eq_true, decide_eq_true_iff,
    replicates_listOf]

/-- Revealing asks for one who ever revealed. -/
theorem reachedCount_iff : (o.listOf t).reachedCount [.revealed] ≠ 0 ↔ o.EverRevealed := by
  have hreached (r : Replicate) :
      r.reached .revealed = true ↔ ∃ u ∈ r.history, u.status = .revealed := by
    simp [Replicate.reached]
  unfold EverRevealed
  constructor
  · intro h
    by_contra hnone
    refine h (ReplicateList.reachedCount_eq_zero fun r hr => ?_)
    rw [replicates_listOf] at hr
    rw [← Bool.not_eq_true, hreached]
    exact fun hrevealed => hnone ⟨r, hr, hrevealed⟩
  · rintro ⟨r, hr, hrevealed⟩
    rw [← replicates_listOf o t] at hr
    exact ReplicateList.reachedCount_ne_zero hr ((hreached r).2 hrevealed)

/-- There is somebody to ask for the upload if one was asked or one revealed. -/
theorem isSome_uploader?_iff : (o.uploader? t).isSome = true ↔ o.Requested ∨ o.Revealed := by
  unfold Requested Revealed
  rw [isSome_uploader?, Bool.or_eq_true, ReplicateList.isSome_requestedUploader?,
    ReplicateList.isEmpty_uploadCandidates, Bool.not_not, List.any_eq_true, replicates_listOf]
  simp only [beq_iff_eq]

/-- The upload is done once somebody uploaded. -/
theorem isSome_uploaded?_iff : ((o.listOf t).uploaded?).isSome = true ↔ o.Uploaded := by
  unfold ReplicateList.uploaded? Uploaded
  rw [List.find?_isSome, replicates_listOf]

/-- The wallet that was recorded leads to one replicate. -/
theorem isUploading_iff (h : ∀ l, o.list = some l → l.wallets.Nodup) :
    isUploading t (o.listOf t) = true ↔ o.Uploads t := by
  have hdistinct : (o.listOf t).wallets.Nodup := by
    unfold listOf
    cases hl : o.list with
    | none => exact List.nodup_nil
    | some l => exact h l hl
  unfold isUploading Uploads
  simp only [Option.any_eq_true, Option.bind_eq_some_iff, beq_iff_eq]
  rw [← replicates_listOf o t]
  constructor
  · rintro ⟨r, ⟨wallet, hwallet, hr⟩, hs⟩
    have hmem : r ∈ (o.listOf t).replicates := List.mem_of_find?_eq_some hr
    have hown : r.wallet = wallet := by simpa using List.find?_some hr
    exact ⟨r, hmem, hown ▸ hwallet, hs⟩
  · rintro ⟨r, hr, hwallet, hs⟩
    exact ⟨r, ⟨r.wallet, hwallet, ReplicateList.find?_of_mem hdistinct hr⟩, hs⟩

/-! ## The table and the move -/

/-- The deadline for contributions is reached at its very instant. -/
theorem contributionDeadlineReached_iff :
    t.contributionDeadlineReached o.now = true ↔ t.contributionDeadline ≤ o.now :=
  decide_eq_true_iff

/-- The move of a task in time is along a line of the table. -/
theorem row_of_next (h : ∀ l, o.list = some l → l.wallets.Nodup) (htime : ¬ o.isOverdue t = true)
    (hs : o.next t = some s) : o.Row t t.status s := by
  unfold next at hs
  rw [if_neg htime] at hs
  cases hstatus : t.status with
  | received =>
    rw [hstatus] at hs
    obtain ⟨hknown, hs⟩ := Option.ite_none_right_eq_some.1 hs
    exact Option.some.inj hs ▸ .initializing (isKnown_iff.1 hknown)
  | initializing =>
    rw [hstatus] at hs
    obtain ⟨hknown, hs⟩ := Option.ite_none_right_eq_some.1 hs
    exact Option.some.inj hs ▸ .initialized (isKnown_iff.1 hknown)
  | initialized =>
    rw [hstatus] at hs
    dsimp only at hs
    split_ifs at hs with hagreed hdue hstarted
    · exact Option.some.inj hs ▸ .run (hasConsensus_iff.1 hagreed)
    · exact Option.some.inj hs ▸ .timeOut (.inl rfl) (fun h => hagreed (hasConsensus_iff.2 h))
        (contributionDeadlineReached_iff.1 hdue)
    · exact Option.some.inj hs ▸ .start (fun h => hagreed (hasConsensus_iff.2 h))
        (fun h => hdue (contributionDeadlineReached_iff.2 h)) (isStarted_iff.1 hstarted)
  | running =>
    rw [hstatus] at hs
    dsimp only at hs
    split_ifs at hs with hagreed hdue
    · exact Option.some.inj hs ▸ .agree (hasConsensus_iff.1 hagreed)
    · exact Option.some.inj hs ▸ .timeOut (.inr rfl) (fun h => hagreed (hasConsensus_iff.2 h))
        (contributionDeadlineReached_iff.1 hdue)
  | consensusReached =>
    rw [hstatus] at hs
    obtain ⟨hrevealed, hs⟩ := Option.ite_none_left_eq_some.1 hs
    exact Option.some.inj hs ▸ .reveal (reachedCount_iff.1 hrevealed)
  | revealing =>
    rw [hstatus] at hs
    obtain ⟨huploader, hs⟩ := Option.ite_none_right_eq_some.1 hs
    exact Option.some.inj hs ▸ .request (isSome_uploader?_iff.1 huploader)
  | resultUploadRequested =>
    rw [hstatus] at hs
    dsimp only at hs
    split_ifs at hs with huploaded huploads
    · exact Option.some.inj hs ▸ .finishUpload (.inl rfl) (isSome_uploaded?_iff.1 huploaded)
    · exact Option.some.inj hs ▸ .upload (fun h => huploaded (isSome_uploaded?_iff.2 h))
        ((isUploading_iff h).1 huploads)
  | resultUploading =>
    rw [hstatus] at hs
    obtain ⟨huploaded, hs⟩ := Option.ite_none_right_eq_some.1 hs
    exact Option.some.inj hs ▸ .finishUpload (.inr rfl) (isSome_uploaded?_iff.1 huploaded)
  | resultUploaded =>
    rw [hstatus] at hs
    obtain ⟨hcompleted, hs⟩ := Option.ite_none_right_eq_some.1 hs
    exact Option.some.inj hs ▸ .finalizing (isCompleted_iff.1 hcompleted)
  | finalizing =>
    rw [hstatus] at hs
    obtain ⟨hcompleted, hs⟩ := Option.ite_none_right_eq_some.1 hs
    exact Option.some.inj hs ▸ .finalized (isCompleted_iff.1 hcompleted)
  | finalized =>
    rw [hstatus] at hs
    obtain ⟨hcompleted, hs⟩ := Option.ite_none_right_eq_some.1 hs
    exact Option.some.inj hs ▸ .complete (isCompleted_iff.1 hcompleted)
  | contributionTimeout =>
    rw [hstatus] at hs
    exact absurd hs (by simp)
  | completed =>
    rw [hstatus] at hs
    exact absurd hs (by simp)
  | failed =>
    rw [hstatus] at hs
    exact absurd hs (by simp)

/-- Each line of the table is the move of a task in time. -/
theorem next_of_row (h : ∀ l, o.list = some l → l.wallets.Nodup) (htime : ¬ o.isOverdue t = true)
    (hrow : o.Row t t.status s) : o.next t = some s := by
  have hdisagreed : ¬ o.Agreed → ¬ o.hasConsensus t = true := mt hasConsensus_iff.1
  unfold next
  rw [if_neg htime]
  generalize t.status = a at hrow ⊢
  cases hrow with
  | initializing known => exact if_pos (isKnown_iff.2 known)
  | initialized known => exact if_pos (isKnown_iff.2 known)
  | run agreed => exact if_pos (hasConsensus_iff.2 agreed)
  | start unsettled inTime started =>
    have hdue := mt contributionDeadlineReached_iff.1 inTime
    exact (if_neg (hdisagreed unsettled)).trans
      ((if_neg hdue).trans (if_pos (isStarted_iff.2 started)))
  | agree agreed => exact if_pos (hasConsensus_iff.2 agreed)
  | timeOut isOpen unsettled due =>
    have hdue := contributionDeadlineReached_iff.2 due
    rcases isOpen with rfl | rfl
    · exact (if_neg (hdisagreed unsettled)).trans (if_pos hdue)
    · exact (if_neg (hdisagreed unsettled)).trans (if_pos hdue)
  | reveal revealed => exact if_neg (reachedCount_iff.2 revealed)
  | request uploader => exact if_pos (isSome_uploader?_iff.2 uploader)
  | upload unfinished uploads =>
    exact (if_neg (mt isSome_uploaded?_iff.1 unfinished)).trans
      (if_pos ((isUploading_iff h).2 uploads))
  | finishUpload upload uploaded =>
    have huploaded : ((o.listOf t).uploaded?).isSome = true := isSome_uploaded?_iff.2 uploaded
    rcases upload with rfl | rfl
    · exact if_pos huploaded
    · exact if_pos huploaded
  | finalizing completed => exact if_pos (isCompleted_iff.2 completed)
  | finalized completed => exact if_pos (isCompleted_iff.2 completed)
  | complete completed => exact if_pos (isCompleted_iff.2 completed)

/-- A task moves to a status if that move is enabled, and not otherwise. -/
theorem next_eq_some_iff (h : ∀ l, o.list = some l → l.wallets.Nodup) :
    o.next t = some s ↔ o.Enabled t s := by
  unfold Enabled
  rw [← isOverdue_iff]
  by_cases hoverdue : o.isOverdue t = true
  · have hnext : o.next t = some .failed := if_pos hoverdue
    rw [hnext, Option.some.injEq]
    exact ⟨fun hs => .inl ⟨hoverdue, hs.symm⟩, fun hs =>
      hs.elim (·.2.symm) fun hin => absurd hoverdue hin.1⟩
  · exact ⟨fun hs => .inr ⟨hoverdue, row_of_next h hoverdue hs⟩, fun hs =>
      hs.elim (fun hout => absurd hout.1 hoverdue) fun hin => next_of_row h hoverdue hin.2⟩

/-- Who is asked to upload stands at the request, or revealed. -/
theorem Enabled.request (h : o.Enabled t .resultUploadRequested) : o.Requested ∨ o.Revealed := by
  rcases h with ⟨-, hfailed⟩ | ⟨-, hrow⟩
  · exact absurd hfailed (by decide)
  · generalize t.status = a at hrow
    cases hrow with
    | request uploader => exact uploader

/-! ## Chance -/

/-- The outlook if the draw falls in another way. -/
def withRoll (roll : Nat) (o : Outlook) : Outlook := { o with roll }

/-- Whether a task moves and whither is not left to chance. -/
theorem next_withRoll (roll : Nat) (o : Outlook) (t : Task) :
    (o.withRoll roll).next t = o.next t := by
  have huploader : ((o.withRoll roll).uploader? t).isSome = (o.uploader? t).isSome := by
    rw [isSome_uploader?, isSome_uploader?]
    rfl
  unfold next
  rw [huploader]
  rfl

/-- Chance decides about no more of the task than its uploader. -/
theorem moved_withRoll (roll : Nat) (o : Outlook) (s : TaskStatus) (t : Task) :
    ((o.withRoll roll).moved s t).saved.unassigned = (o.moved s t).saved.unassigned := by
  cases s <;> rfl

end Outlook

namespace Pool

/-- What may become of the list of a task that moves to a status. -/
inductive ListMoves (p : Pool) (t : Task) : TaskStatus → Option ReplicateList → Prop where
  /-- A task that is initialized gets a list if it has none. -/
  | created (absent : p.store.list? t.chainTaskId = none) :
      ListMoves p t .initialized (some (.empty t.chainTaskId))
  /-- If nobody stands at the request to upload, one replicate that revealed is asked. -/
  | asked {l : ReplicateList} {r : Replicate} {before after : List Replicate}
      (list : p.store.list? t.chainTaskId = some l) (new : ¬ (p.outlook t.chainTaskId).Requested)
      (replicates : l.replicates = before ++ r :: after) (revealed : r.status = .revealed) :
      ListMoves p t .resultUploadRequested (some { l with
        version := l.version + 1
        replicates := before ++
          r.updateStatus (.byPool p.now .resultUploadRequested none) :: after })
  | kept {s : TaskStatus} (present : s = .initialized → p.store.list? t.chainTaskId ≠ none)
      (requested : s = .resultUploadRequested → (p.outlook t.chainTaskId).Requested) :
      ListMoves p t s (p.store.list? t.chainTaskId)

/-- What the move of a task leaves: beside the task only its list and the slots of its workers, and
chance, may differ. -/
structure Moves (p : Pool) (t saved : Task) (q : Pool) : Prop where
  task : saved = ((p.outlook t.chainTaskId).moved saved.status t).saved
  history : saved.history = t.history ++ [⟨saved.status, p.now⟩]
  version : saved.version = t.version + 1
  stored : q.store.task? t.chainTaskId = some saved
  otherTasks : ∀ id, id ≠ t.chainTaskId → q.store.task? id = p.store.task? id
  list : p.ListMoves t saved.status (q.store.list? t.chainTaskId)
  otherLists : ∀ id, id ≠ t.chainTaskId → q.store.list? id = p.store.list? id
  /-- The workers of a task that is over lose their slot, as far as they are known. -/
  freed : saved.status ∈ [.completed, .failed, .contributionTimeout] →
    ∀ l, p.store.list? t.chainTaskId = some l → ∀ wallet ∈ l.wallets,
      q.registry.worker? wallet = (p.registry.worker? wallet).map fun w =>
        { w with computing := w.computing.filter (· != t.chainTaskId) }
  otherWorkers : ∀ wallet, (saved.status ∈ [.completed, .failed, .contributionTimeout] →
    ∀ l, p.store.list? t.chainTaskId = some l → wallet ∉ l.wallets) →
      q.registry.worker? wallet = p.registry.worker? wallet
  policy : q.registry = { p.registry with workers := q.registry.workers }
  rest : q = { p with store := q.store, registry := q.registry, rolls := q.rolls }

variable {p : Pool} {t : Task} {id : String}

/-- The outlook has the replicates of the stored list. -/
theorem replicates_outlook {l : ReplicateList} (hl : p.store.list? id = some l) :
    (p.outlook id).replicates = l.replicates := by
  unfold Outlook.replicates outlook
  rw [hl]
  rfl

/-- A replicate that is asked to upload gets one entry, and the others stay as they are. -/
theorem listMoves_asked {l : ReplicateList} {r : Replicate}
    (hl : p.store.list? t.chainTaskId = some l) (hnew : ¬ (p.outlook t.chainTaskId).Requested)
    (hr : l.find? r.wallet = some r) (hrevealed : r.status = .revealed) :
    p.ListMoves t .resultUploadRequested
      (some (l.report r.wallet (p.outlook t.chainTaskId).request)) := by
  obtain ⟨-, before, after, -, hreplicates, -, hreport⟩ := ReplicateList.report_eq_append hr
  have hknown : l.hasWorker r.wallet = true := Option.isSome_of_eq_some hr
  have hlist : l.report r.wallet (p.outlook t.chainTaskId).request = { l with
      version := l.version + 1
      replicates := before ++ r.updateStatus (p.outlook t.chainTaskId).request :: after } := by
    rw [← hreport]
    unfold ReplicateList.report
    rw [if_pos hknown]
    rfl
  rw [hlist]
  exact .asked hl hnew hreplicates hrevealed

/-- The list that the move of a task leaves. -/
theorem listMoves_listAfter (hp : p.Reachable) {s : TaskStatus}
    (henabled : (p.outlook t.chainTaskId).Enabled t s) :
    p.ListMoves t s ((p.outlook t.chainTaskId).listAfter s t) := by
  cases s with
  | initialized =>
    show p.ListMoves t _ (some ((p.store.list? t.chainTaskId).getD _))
    cases hl : p.store.list? t.chainTaskId with
    | none => exact .created hl
    | some l =>
      rw [Option.getD_some, ← hl]
      exact .kept (fun _ => by rw [hl]; exact Option.some_ne_none l) fun h => absurd h (by decide)
  | resultUploadRequested =>
    by_cases hrequested : (p.outlook t.chainTaskId).Requested
    · -- who stands at the request is not asked again
      have hasked : (p.outlook t.chainTaskId).asked? t = none := by
        unfold Outlook.asked?
        rw [if_pos]
        rw [ReplicateList.isSome_requestedUploader?, Outlook.replicates_listOf]
        exact hrequested
      unfold Outlook.listAfter
      rw [hasked]
      exact .kept (fun h => absurd h (by decide)) fun _ => hrequested
    · obtain ⟨r, hr, hrevealed⟩ := henabled.request.resolve_left hrequested
      cases hl : p.store.list? t.chainTaskId with
      | none =>
        unfold Outlook.replicates outlook at hr
        rw [hl] at hr
        exact absurd hr List.not_mem_nil
      | some l =>
        rw [replicates_outlook hl] at hr
        have hnobody : l.requestedUploader?.isSome = false := by
          rw [← Bool.not_eq_true, ReplicateList.isSome_requestedUploader?, ← replicates_outlook hl]
          exact hrequested
        obtain ⟨chosen, hmem, hchosen, hasked, -⟩ := exists_chosen hl t hnobody ⟨r, hr, hrevealed⟩
        have hfind := ReplicateList.find?_of_mem (hp.distinct _ l hl) hmem
        unfold Outlook.listAfter
        rw [hasked, show (p.outlook t.chainTaskId).list = some l from hl]
        exact listMoves_asked hl hrequested hfind hchosen
  | _ => exact .kept (fun h => absurd h (by decide)) fun h => absurd h (by decide)

/-- What an update leaves that makes the move that is enabled. -/
theorem moves_update (hp : p.Reachable) (ht : p.store.task? t.chainTaskId = some t)
    {s : TaskStatus} (hnext : (p.outlook t.chainTaskId).next t = some s) :
    p.Moves t ((p.outlook t.chainTaskId).moved s t).saved (p.update t.chainTaskId) := by
  have hover : s.freesWorkers = true ↔ s ∈ [.completed, .failed, .contributionTimeout] := by
    cases s <;> decide
  have hmember : ∀ wallet,
      ((p.outlook t.chainTaskId).listAfter s t).any (·.hasWorker wallet) = true ↔
        ∃ l, p.store.list? t.chainTaskId = some l ∧ wallet ∈ l.wallets := by
    intro wallet
    rw [Outlook.hasWorker_listAfter, Option.any_eq_true]
    simp only [ReplicateList.hasWorker_iff]
    rfl
  have hpolicy : (p.update t.chainTaskId).registry =
      { p.registry with workers := (p.update t.chainTaskId).registry.workers } :=
    (updateTask_updates t.chainTaskId p).policy
  rw [update_of_due hp.wellKept.keyed (due?_eq_some.2 ⟨ht, hnext⟩)] at hpolicy ⊢
  refine ⟨rfl, Outlook.moved_history _ s t, congrArg (· + 1) (Outlook.moved_version _ s t), ?_,
    fun id hid => ?_, ?_, fun id hid => ?_, fun hs l hl wallet hwallet => ?_, fun wallet h => ?_,
    hpolicy, advanced_eq s ht⟩
  · rw [task?_advanced s ht, if_pos rfl]
  · rw [task?_advanced s ht, if_neg hid.symm]
  · rw [list?_advanced s ht, if_pos rfl]
    exact listMoves_listAfter hp ((Outlook.next_eq_some_iff (hp.distinct _)).1 hnext)
  · rw [list?_advanced s ht, if_neg hid.symm]
  · rw [worker?_advanced s ht, if_pos ⟨hover.2 hs, (hmember wallet).2 ⟨l, hl, hwallet⟩⟩]
    rfl
  · rw [worker?_advanced s ht, if_neg]
    rintro ⟨hfrees, hany⟩
    obtain ⟨l, hl, hwallet⟩ := (hmember wallet).1 hany
    exact h (hover.1 hfrees) l hl hwallet

/-- In two pools of one clock, with the same record, list and chain task, an update of the task
gives the same answer but for the choice of the uploader, which is left to the draw. -/
theorem attempt_updateTask_congr {p' : Pool} (hk : p.store.Keyed) (hk' : p'.store.Keyed)
    (hnow : p'.now = p.now) (htask : p'.store.task? id = p.store.task? id)
    (hlist : p'.store.list? id = p.store.list? id) (hchain : p'.chain.task? id = p.chain.task? id)
    {answer : Option Task} {q : Pool} (hq : p.attempt (updateTask id) = (.ok answer, q)) :
    ∃ answer' q', p'.attempt (updateTask id) = (.ok answer', q') ∧
      answer'.map (·.unassigned) = answer.map (·.unassigned) ∧
      (p'.rolls.head? = p.rolls.head? → answer' = answer) := by
  have houtlook : p'.outlook id = (p.outlook id).withRoll (p'.rolls.headD 0) := by
    unfold outlook
    rw [hnow, hlist, hchain]
    rfl
  rw [attempt_updateTask hk] at hq
  rw [attempt_updateTask hk']
  unfold due? at hq ⊢
  rw [htask]
  cases ht : p.store.task? id with
  | none =>
    rw [ht] at hq
    obtain rfl := Except.ok.inj (congrArg Prod.fst hq)
    exact ⟨none, p', rfl, rfl, fun _ => rfl⟩
  | some t =>
    rw [ht, Option.bind_some] at hq
    rw [Option.bind_some, houtlook, Outlook.next_withRoll]
    cases hnext : (p.outlook id).next t with
    | none =>
      rw [hnext] at hq
      obtain rfl := Except.ok.inj (congrArg Prod.fst hq)
      exact ⟨none, p', rfl, rfl, fun _ => rfl⟩
    | some s =>
      rw [hnext] at hq
      obtain rfl := Except.ok.inj (congrArg Prod.fst hq)
      refine ⟨_, _, rfl, congrArg some (Outlook.moved_withRoll ..), fun hroll => ?_⟩
      have hsame : p'.rolls.headD 0 = p.rolls.headD 0 := by
        rw [List.headD_eq_head?_getD, hroll, ← List.headD_eq_head?_getD]
      rw [hsame]
      rfl

/-- One update makes the one move that is enabled, and touches nothing else. It answers with nothing
if and only if no line of the transition table applies, and then the whole pool is as it was. The
task that it saves depends on the clock, on the record, the list and the chain's view of that task,
and on who is drawn as the uploader. -/
theorem one_move_at_a_time (hp : p.Reachable) (ht : p.store.task? id = some t) :
    ∃ answer q, p.attempt (updateTask id) = (.ok answer, q) ∧
      (answer = none ↔ ∀ s, ¬ (p.outlook id).Enabled t s) ∧
      (answer = none → q = p) ∧
      (∀ saved, answer = some saved →
        (∀ s, (p.outlook id).Enabled t s ↔ s = saved.status) ∧ p.Moves t saved q) ∧
      ∀ p' : Pool, p'.Reachable → p'.now = p.now → p'.store.task? id = some t →
        p'.store.list? id = p.store.list? id → p'.chain.task? id = p.chain.task? id →
        ∃ answer' q', p'.attempt (updateTask id) = (.ok answer', q') ∧
          answer'.map (·.unassigned) = answer.map (·.unassigned) ∧
          (p'.rolls.head? = p.rolls.head? → answer' = answer) := by
  have hk : p.store.Keyed := hp.wellKept.keyed
  obtain rfl : t.chainTaskId = id := hk.task ht
  have henabled (s : TaskStatus) : (p.outlook t.chainTaskId).Enabled t s ↔
      (p.outlook t.chainTaskId).next t = some s :=
    (Outlook.next_eq_some_iff (hp.distinct _)).symm
  have hattempt := attempt_updateTask hk t.chainTaskId
  cases hnext : (p.outlook t.chainTaskId).next t with
  | none =>
    have hdue : p.due? t.chainTaskId = none := by
      unfold due?
      rw [ht, Option.bind_some, hnext]
      rfl
    rw [hdue] at hattempt
    refine ⟨none, p, hattempt, iff_of_true rfl fun s hs => ?_, fun _ => rfl,
      fun saved hsaved => absurd hsaved (by simp), fun p' hp' hnow htask hlist hchain => ?_⟩
    · exact absurd (hnext.symm.trans ((henabled s).1 hs)) (by simp)
    · exact attempt_updateTask_congr hk hp'.wellKept.keyed hnow (htask.trans ht.symm) hlist hchain
        hattempt
  | some s =>
    have hdue := due?_eq_some.2 ⟨ht, hnext⟩
    have hmoves := moves_update hp ht hnext
    rw [update_of_due hk hdue] at hmoves
    rw [hdue] at hattempt
    refine ⟨_, _, hattempt, iff_of_false (by simp) fun h => h s ((henabled s).2 hnext),
      fun hnone => absurd hnone (by simp), fun saved hsaved => ?_,
      fun p' hp' hnow htask hlist hchain => ?_⟩
    · obtain rfl := Option.some.inj hsaved
      refine ⟨fun s' => ?_, hmoves⟩
      rw [henabled, hnext, Option.some.injEq, eq_comm]
      rfl
    · exact attempt_updateTask_congr hk hp'.wellKept.keyed hnow (htask.trans ht.symm) hlist hchain
        hattempt

/-- A revealing task with one candidate moves to the request for the upload. -/
theorem one_move_at_a_time_revealing : revealing.Reachable ∧ ∃ t saved q,
    revealing.store.task? "0x1" = some t ∧
      revealing.attempt (updateTask "0x1") = (.ok (some saved), q) ∧
      saved.status = .resultUploadRequested ∧ revealing.Moves t saved q := by
  have hreachable : revealing.Reachable := isNew_blank.reachable.after _
  have ht : revealing.store.task? "0x1" =
      some ((Task.plain "0x1").changeStatus .epoch .revealing) := rfl
  obtain ⟨answer, q, hq, hnone, -, hsome, -⟩ := one_move_at_a_time hreachable ht
  have henabled : (revealing.outlook "0x1").Enabled
      ((Task.plain "0x1").changeStatus .epoch .revealing) .resultUploadRequested :=
    (Outlook.next_eq_some_iff (hreachable.distinct "0x1")).1 rfl
  cases answer with
  | none => exact absurd henabled (hnone.1 rfl _)
  | some saved =>
    obtain ⟨hstatus, hmoves⟩ := hsome saved rfl
    exact ⟨hreachable, _, saved, q, ht, hq, ((hstatus _).1 henabled).symm, hmoves⟩

end Pool

end ComputePool
