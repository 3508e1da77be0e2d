import ComputePool.Proofs.Transition.Outlook

/-!
# What the calls of a transition come to

One lemma for each function of the transition table: what it answers, and the pool it leaves, in
terms of the task's outlook. `attempt_dueChange` joins them: the calls never fail, they answer with
`Outlook.moved` at `Outlook.next`, and they leave `Pool.prepared`, which differs from the pool
before only for two moves: a task that gets initialized has its list created, and one that enters
the upload has asked an uploader.

The list of a task is looked up under the id that it carries itself, so the lemmas about consensus
need the records to lie under their ids.
-/

namespace ComputePool

namespace Pool

variable (p : Pool)

/-- The pool in which a wallet was chosen and asked to upload the result of a task. -/
def ask (t : Task) (wallet : String) : Pool :=
  ((p.draw ((p.outlook t.chainTaskId).listOf t).uploadCandidates.length).2.updateReplicate
    t.chainTaskId wallet (p.outlook t.chainTaskId).request).2

/-- The pool once the move of a task to a status is prepared. -/
def prepared (status : TaskStatus) (t : Task) : Pool :=
  match status with
  | .initialized => (p.createList t.chainTaskId).2
  | .resultUploadRequested => (((p.outlook t.chainTaskId).asked? t).map (p.ask t)).getD p
  | _ => p

/-- How the calls of a transition end if the task moves to this status, or nowhere. -/
def outcome (t : Task) : Option TaskStatus → Except PoolError (Option Task) × Pool
  | none => (.ok none, p)
  | some status => (.ok (some ((p.outlook t.chainTaskId).moved status t)), p.prepared status t)

/-- Which move is due may be decided before the outcome is looked at. -/
theorem outcome_ite (t : Task) (c : Prop) [Decidable c] (a b : Option TaskStatus) :
    p.outcome t (if c then a else b) = if c then p.outcome t a else p.outcome t b :=
  apply_ite (p.outcome t) c a b

/-! ## Reading -/

@[simp] theorem attempt_now : p.attempt (certain Collaborators.now) = (.ok p.now, p) := rfl

/-- The chain is read as the outlook of the task has it. -/
@[simp] theorem attempt_chainTaskOf (t : Task) :
    p.attempt (chainTaskOf t) = (.ok (p.outlook t.chainTaskId).chainTask, p) := rfl

/-- The list is read as the outlook of the task has it; a task without a list counts as one with an
empty list. -/
@[simp] theorem attempt_listOf (t : Task) :
    p.attempt (listOf t) = (.ok ((p.outlook t.chainTaskId).listOf t), p) := rfl

/-- A move changes the copy of the task that was read. -/
@[simp] theorem attempt_moveTo (status : TaskStatus) (t : Task) :
    p.attempt (moveTo status t) = (.ok (some (t.changeStatus p.now status)), p) := rfl

variable {p}

/-- Where records are keyed, the list that is read is the list of that task. -/
theorem listOf_chainTaskId (h : p.store.Keyed) (t : Task) :
    ((p.outlook t.chainTaskId).listOf t).chainTaskId = t.chainTaskId := by
  unfold Outlook.listOf outlook
  cases hl : p.store.list? t.chainTaskId with
  | none => rfl
  | some l => exact h.list hl

/-- The consensus that the services look for is the one of the outlook. -/
theorem attempt_isConsensusReached (h : p.store.Keyed) (t : Task) :
    p.attempt (certain (isConsensusReached ((p.outlook t.chainTaskId).listOf t))) =
      (.ok ((p.outlook t.chainTaskId).hasConsensus t), p) := by
  rw [attempt_certain, perform_isConsensusReached, hasConsensus, listOf_chainTaskId h]
  rfl

/-! ## The functions of the table -/

variable (p)

/-- Creating a list that is there already counts as success. -/
theorem attempt_ensureList (t : Task) :
    p.attempt (ensureList t) = (.ok (), (p.createList t.chainTaskId).2) := by
  have hcall : p.attempt (certain (Collaborators.createList t.chainTaskId)) =
      (.ok (p.createList t.chainTaskId).1, (p.createList t.chainTaskId).2) := rfl
  unfold ensureList
  rw [attempt_bind_ok hcall]
  cases h : p.store.createList t.chainTaskId with
  | ok r =>
    have hw : p.createList t.chainTaskId = (.ok r.1, { p with store := r.2 }) :=
      p.writeStore_ok (a := r.1) (s := r.2) h
    rw [hw]
    rfl
  | error e =>
    have hw : p.createList t.chainTaskId = (.error e, p) := p.writeStore_error h
    rw [hw]
    unfold Store.createList at h
    split at h
    · obtain rfl := Except.error.inj h
      rfl
    · exact absurd h (by simp)

/-- A task that the chain knows is initialized in two moves. -/
theorem attempt_trackInitialization (t : Task) :
    p.attempt (trackInitialization t) = p.outcome t
      (if (p.outlook t.chainTaskId).isKnown then
        if t.status = .received then some .initializing else some .initialized
      else none) := by
  unfold trackInitialization
  rw [attempt_bind_ok (p.attempt_chainTaskOf t), attempt_ite]
  by_cases hknown : (p.outlook t.chainTaskId).isKnown = true
  · rw [if_pos hknown, if_neg (by unfold Outlook.isKnown at hknown; simp [hknown]), attempt_ite,
      outcome_ite]
    have hnow : (p.createList t.chainTaskId).2.now = p.now := congrArg (·.now) (writeStore_snd _ p)
    rw [attempt_bind_ok (p.attempt_ensureList t), attempt_moveTo, attempt_moveTo, hnow]
    rfl
  · rw [if_neg hknown, if_pos (by unfold Outlook.isKnown at hknown; simpa using hknown)]
    rfl

/-- Revealing begins once somebody revealed. -/
theorem attempt_startReveal (t : Task) :
    p.attempt (startReveal t) = p.outcome t
      (if ((p.outlook t.chainTaskId).listOf t).reachedCount [.revealed] = 0 then none
      else some .revealing) := by
  unfold startReveal
  rw [attempt_bind_ok (p.attempt_listOf t), attempt_ite, outcome_ite]
  rfl

/-- A task that the chain completed goes on towards its completion. -/
theorem attempt_finalize (t : Task) :
    p.attempt (finalize t) =
      if (p.outlook t.chainTaskId).isCompleted then
        (.ok (some (t.changeStatus p.now (nextToCompletion t.status))), p)
      else (.ok none, p) := by
  unfold finalize
  rw [attempt_bind_ok (p.attempt_chainTaskOf t), attempt_ite]
  rfl

/-- The upload is over once somebody reported it, and has begun once the chosen uploader did. -/
theorem attempt_trackUpload (t : Task) :
    p.attempt (trackUpload t) = p.outcome t
      (if ((p.outlook t.chainTaskId).listOf t).uploaded?.isSome then some .resultUploaded
      else if t.status = .resultUploadRequested &&
          isUploading t ((p.outlook t.chainTaskId).listOf t)
        then some .resultUploading
      else none) := by
  unfold trackUpload
  rw [attempt_bind_ok (p.attempt_listOf t)]
  cases hu : ((p.outlook t.chainTaskId).listOf t).uploaded? with
  | some r =>
    show _ = p.outcome t (some .resultUploaded)
    unfold outcome Outlook.moved Outlook.amended
    rw [hu]
    rfl
  | none =>
    dsimp only
    rw [attempt_ite, outcome_ite, outcome_ite]
    rfl

variable {p}

/-- A consensus goes before the deadline for contributions, and the deadline before the first to
begin. -/
theorem attempt_contribute (h : p.store.Keyed) (t : Task) :
    p.attempt (contribute t) = p.outcome t
      (if (p.outlook t.chainTaskId).hasConsensus t then
        if t.status = .initialized then some .running else some .consensusReached
      else if t.contributionDeadlineReached p.now then some .contributionTimeout
      else if t.status = .initialized && ((p.outlook t.chainTaskId).listOf t).isStarted then
        some .running
      else none) := by
  unfold contribute
  rw [attempt_bind_ok (p.attempt_listOf t), attempt_bind_ok (attempt_isConsensusReached h t),
    attempt_ite, attempt_ite, attempt_bind_ok p.attempt_now, attempt_ite, attempt_ite,
    outcome_ite, outcome_ite, outcome_ite, outcome_ite]
  rfl

/-! ## The choice of an uploader -/

variable (p)

/-- Without a candidate nobody is asked; otherwise the draw decides. -/
theorem attempt_chooseUploader (t : Task) :
    p.attempt (chooseUploader t ((p.outlook t.chainTaskId).listOf t)) =
      match (p.outlook t.chainTaskId).candidate? t with
      | none => (.ok none, p)
      | some r => (.ok (some r.wallet), p.ask t r.wallet) := by
  set l := (p.outlook t.chainTaskId).listOf t with hl
  have hcandidate : (p.outlook t.chainTaskId).candidate? t =
      l.uploadCandidates[p.rolls.headD 0 % l.uploadCandidates.length]? := rfl
  rw [hcandidate]
  unfold chooseUploader
  rw [attempt_ite]
  by_cases hempty : l.uploadCandidates = []
  · rw [if_pos (by rw [hempty]; rfl), hempty]
    rfl
  · rw [if_neg (by simpa using hempty)]
    have hdraw : p.attempt (certain (Collaborators.draw l.uploadCandidates.length)) =
        (.ok (p.rolls.headD 0 % l.uploadCandidates.length),
          (p.draw l.uploadCandidates.length).2) := rfl
    rw [attempt_bind_ok hdraw]
    have hlt := Nat.mod_lt (p.rolls.headD 0) (List.length_pos_iff.2 hempty)
    rw [List.getElem?_eq_getElem hlt]
    rfl

/-- An upload is requested if there is somebody to ask. -/
theorem attempt_requestUpload (t : Task) :
    p.attempt (requestUpload t) = p.outcome t
      (if ((p.outlook t.chainTaskId).uploader? t).isSome then some .resultUploadRequested
      else none) := by
  unfold requestUpload outcome Outlook.moved Outlook.amended prepared Outlook.uploader?
    Outlook.asked?
  rw [attempt_bind_ok (p.attempt_listOf t)]
  cases hr : ((p.outlook t.chainTaskId).listOf t).requestedUploader? with
  | some r => rfl
  | none =>
    -- nobody was asked before, so the draw decides
    have hchoose := p.attempt_chooseUploader t
    cases hc : (p.outlook t.chainTaskId).candidate? t with
    | none =>
      rw [hc] at hchoose
      exact attempt_bind_ok hchoose _
    | some r =>
      rw [hc] at hchoose
      exact attempt_bind_ok hchoose _

/-! ## The table -/

variable {p}

/-- The calls of a transition never fail, and come to what follows from the outlook. -/
theorem attempt_dueChange (h : p.store.Keyed) (t : Task) :
    p.attempt (dueChange t) = p.outcome t ((p.outlook t.chainTaskId).next t) := by
  unfold dueChange Outlook.next
  rw [attempt_bind_ok p.attempt_now, attempt_ite, outcome_ite]
  refine ite_congr rfl (fun _ => rfl) fun _ => ?_
  -- in time, each status by the function that serves it
  cases hs : t.status with
  | received =>
    dsimp only
    rw [p.attempt_trackInitialization, if_pos hs]
  | initializing =>
    dsimp only
    rw [p.attempt_trackInitialization, hs]
    rfl
  | initialized =>
    dsimp only
    rw [attempt_contribute h, hs]
    rfl
  | running =>
    dsimp only
    rw [attempt_contribute h, hs]
    rfl
  | consensusReached => exact p.attempt_startReveal t
  | contributionTimeout => rfl
  | revealing => exact p.attempt_requestUpload t
  | resultUploadRequested =>
    dsimp only
    rw [p.attempt_trackUpload, hs]
    rfl
  | resultUploading =>
    dsimp only
    rw [p.attempt_trackUpload, hs]
    rfl
  | resultUploaded =>
    dsimp only
    rw [p.attempt_finalize, hs, outcome_ite]
    rfl
  | finalizing =>
    dsimp only
    rw [p.attempt_finalize, hs, outcome_ite]
    rfl
  | finalized =>
    dsimp only
    rw [p.attempt_finalize, hs, outcome_ite]
    rfl
  | completed => rfl
  | failed => rfl

end Pool

end ComputePool
