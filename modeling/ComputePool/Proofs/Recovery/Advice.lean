import ComputePool.Proofs.Effects
import ComputePool.Proofs.Mark

/-!
# What recovery tells a worker

Recovery is a table (`TaskPhase.instruction?`): the phase of the task and the place where the
replicate stands say what its worker does next. Around the table are

* what comes before it: a replicate without history, a task that waits for its enclave challenge,
  and a task that went on without the worker (`Task.canTell`, `Task.isLostFor`);
* what the chain adds to it: where it proves progress that was never reported, the replicate is
  brought up to date (`Pool.catchUp?`) and stands there from then on;
* the completion, where it only matters that the replicate once revealed.

`Pool.advice` puts these together, and `Pool.advised` is the pool that is left. The theorem
`Pool.recovery_by_table` says that the service answers by them.
-/

namespace ComputePool

/-- What a worker does next, by the phase of the task and the place where its replicate stands.
While contributions are awaited it matters whether there is a consensus. -/
def TaskPhase.instruction? (agreed : Bool) : TaskPhase → ReplicateStatus → Option Instruction
  | .contribution, .created => some .contribute
  | .contribution, .contributing => some .contribute
  | .contribution, .contributed => some (if agreed then .reveal else .wait)
  | .reveal, .contributed => some .reveal
  | .reveal, .revealing => some .reveal
  | .reveal, .revealed => some .wait
  | .reveal, .resultUploadRequested => some .upload
  | .resultUpload, .resultUploadRequested => some .upload
  | .resultUpload, .resultUploading => some .upload
  | .resultUpload, .resultUploaded => some .wait
  | _, _ => none

/-- The replicate has a history, and the task waits for no enclave challenge. -/
def Task.canTell (t : Task) (r : Replicate) : Bool :=
  !r.history.isEmpty && (!t.tee || t.hasEnclaveChallenge)

/-- The task went on without the worker: it timed out, or a consensus was reached to which the
worker did not contribute. -/
def Task.isLostFor (t : Task) (r : Replicate) : Bool :=
  t.status == .contributionTimeout || t.status == .consensusReached && !r.reached .contributed

/-- What goes along with an instruction: the authorization to contribute, the block of the
consensus to reveal, the cause of an abort. -/
def Task.extraFor (t : Task) (s : Signer) (wallet : String) (i : Instruction) : Extra where
  authorization :=
    if i = .contribute then some (s.authorize wallet t.chainTaskId t.enclaveChallenge) else none
  block := if i = .reveal then some t.consensusBlock else none
  abortCause :=
    if i = .abort then
      some (if t.status = .contributionTimeout then .contributionTimeout else .consensusReached)
    else none

/-- The replicate once it was brought up to date, if there was something to report. -/
def Replicate.reported (u : Option StatusUpdate) (r : Replicate) : Replicate :=
  u.elim r r.updateStatus

/-- A relevant status that was just reported is the last one. -/
theorem Replicate.lastRelevant?_updateStatus (r : Replicate) {u : StatusUpdate}
    (hu : u.status.isRelevant = true) : (r.updateStatus u).lastRelevant? = some u.status := by
  have hhistory : (r.updateStatus u).history.reverse = u :: r.history.reverse := List.reverse_append
  unfold lastRelevant?
  rw [hhistory]
  exact List.find?_cons_of_pos hu

/-- A replicate reached the statuses that it reached before, and the one that is reported. -/
theorem Replicate.reached_updateStatus (r : Replicate) (u : StatusUpdate) (s : ReplicateStatus) :
    (r.updateStatus u).reached s = (r.reached s || u.status == s) := by
  unfold reached
  show (r.history ++ [u]).any _ = _
  rw [List.any_append, List.any_cons, List.any_nil, Bool.or_false]

namespace Pool

/-- The progress of a replicate that the chain proves, or the repository, and that was never
reported. -/
def catchUp? (t : Task) (r : Replicate) (block : UInt64) (p : Pool) : Option StatusUpdate :=
  let contribution := p.chain.contribution? t.chainTaskId r.wallet
  if !t.canTell r || t.isLostFor r then none
  else match t.phase?, r.lastRelevant? with
    | some .contribution, some .contributing =>
      (contribution.filter (·.isContributed)).map fun c =>
        .byPool p.now .contributed
          (some { Details.ofBlock block with resultHash := some c.resultHash })
    | some .reveal, some .revealing =>
      if contribution.any (·.isRevealed) then
        some (.byPool p.now .revealed (some (.ofBlock block)))
      else none
    | some .resultUpload, some .resultUploading =>
      if p.chain.isUploaded t.chainTaskId then
        some (.byPool p.now .resultUploaded (some .none))
      else none
    | _, _ => none

/-- The pool once a replicate was brought up to date and its task published for re-evaluation. -/
def caughtUp (t : Task) (r : Replicate) (block : UInt64) (p : Pool) : Pool :=
  match p.catchUp? t r block with
  | some u => p.after [.updateReplicate t.chainTaskId r.wallet u, .publish t.chainTaskId]
  | none => p

/-- Where a replicate stands once it was brought up to date. -/
def standing? (t : Task) (r : Replicate) (block : UInt64) (p : Pool) : Option ReplicateStatus :=
  (r.reported (p.catchUp? t r block)).lastRelevant?

/-- There is a consensus on the list of a task once a replicate was brought up to date. -/
def isAgreed (t : Task) (r : Replicate) (block : UInt64) (p : Pool) : Bool :=
  ((p.caughtUp t r block).store.list? t.chainTaskId).any p.hasConsensus

/-- What a worker that revealed does once the result is there, by the task as it is stored. -/
def completion? (r : Replicate) (p : Pool) : Option Instruction :=
  if r.reached .revealed then
    (p.store.task? r.chainTaskId).map fun t =>
      if t.status = .completed then .complete else .wait
  else none

/-- What recovery tells the worker of a replicate, if anything. -/
def advice (t : Task) (r : Replicate) (block : UInt64) (p : Pool) : Option Instruction :=
  if !t.canTell r then none
  else if t.isLostFor r then some .abort
  else if t.phase? = some .completion then p.completion? r
  else
    t.phase?.bind fun phase =>
      (p.standing? t r block).bind (phase.instruction? (p.isAgreed t r block))

/-- The pool once recovery decided what to tell. A task whose workers are to reveal while it still
awaits contributions is published for re-evaluation. -/
def advised (t : Task) (r : Replicate) (block : UInt64) (p : Pool) : Pool :=
  if t.phase? = some .contribution ∧ p.advice t r block = some .reveal then
    (p.caughtUp t r block).after [.publish t.chainTaskId]
  else p.caughtUp t r block

variable {p : Pool} {t : Task} {r : Replicate} {block : UInt64}

/-! ## What recovery leaves alone -/

/-- A publication leaves everything but the dispatcher. -/
theorem after_publish (p : Pool) (id : String) :
    p.after [.publish id] = { p with dispatcher := (p.after [.publish id]).dispatcher } :=
  publishRequest_snd id p

/-- Only replicates and the dispatcher may differ. -/
structure Recovered (p q : Pool) : Prop where
  others : q = { p with store := q.store, dispatcher := q.dispatcher }
  tasks : q.store.tasks = p.store.tasks

namespace Recovered

variable {q : Pool}

theorem refl (p : Pool) : p.Recovered p := ⟨rfl, rfl⟩

theorem trans {q' : Pool} (h : p.Recovered q) (h' : q.Recovered q') : p.Recovered q' := by
  refine ⟨?_, h'.tasks.trans h.tasks⟩
  have hothers := h'.others
  rw [h.others] at hothers
  exact hothers

/-- Each step of a recovery writes to one replicate or to the queue. -/
theorem of_step {s : Step} (hs : s.Recovers) (p : Pool) : p.Recovered (s.apply p) := by
  refine ⟨?_, Step.tasks_apply hs.not_writesTasks p⟩
  cases s with
  | updateReplicate id wallet u => rfl
  | publish id =>
    have hstore : ((Step.publish id).apply p).store = p.store :=
      Step.store_apply p (by simp [Step.part])
    rw [hstore]
    exact publishRequest_snd id p
  | _ => exact hs.elim

/-- A recovery changes replicates and the dispatcher alone, however many steps it takes. -/
theorem of_leads (h : p.Leads Step.Recovers q) : p.Recovered q :=
  h.keeps (P := fun q => p.Recovered q) (fun _ hs _ hq => hq.trans (of_step hs _)) (refl p)

variable (h : p.Recovered q)

include h

theorem now : q.now = p.now := congrArg (·.now) h.others

theorem chain : q.chain = p.chain := congrArg (·.chain) h.others

theorem registry : q.registry = p.registry := congrArg (·.registry) h.others

theorem signer : q.signer = p.signer := congrArg (·.signer) h.others

/-- Whether there is a consensus does not change while recovery repairs a replicate. -/
theorem hasConsensus (l : ReplicateList) : q.hasConsensus l = p.hasConsensus l := by
  unfold Pool.hasConsensus
  rw [h.chain]

end Recovered

theorem leads_caughtUp (p : Pool) (t : Task) (r : Replicate) (block : UInt64) :
    p.Leads Step.Recovers (p.caughtUp t r block) := by
  unfold caughtUp
  split
  · exact leads_after (by simp [Step.Recovers]) p
  · exact .refl p

theorem leads_advised (p : Pool) (t : Task) (r : Replicate) (block : UInt64) :
    p.Leads Step.Recovers (p.advised t r block) := by
  have hcaughtUp := p.leads_caughtUp t r block
  unfold advised
  split
  · exact hcaughtUp.trans (leads_after (by simp [Step.Recovers]) _)
  · exact hcaughtUp

/-! ## Bringing a replicate up to date -/

/-- A repair reports what was missed and then publishes the task. -/
theorem attempt_repair (id wallet : String) (status : ReplicateStatus) (details : Details) :
    p.attempt (repair id wallet status details) =
      (.ok (), p.after [.updateReplicate id wallet (.byPool p.now status (some details)),
        .publish id]) := rfl

/-- Where nothing was missed nothing is repaired. -/
theorem caughtUp_of_none (h : p.catchUp? t r block = none) : p.caughtUp t r block = p := by
  unfold caughtUp
  rw [h]

/-- Where a report was missed it is made up for, and the task is published. -/
theorem caughtUp_of_some {u : StatusUpdate} (h : p.catchUp? t r block = some u) :
    p.caughtUp t r block =
      p.after [.updateReplicate t.chainTaskId r.wallet u, .publish t.chainTaskId] := by
  unfold caughtUp
  rw [h]

/-- A replicate that is brought up to date is so in its list, and no other list changes. -/
theorem list?_caughtUp (p : Pool) (t : Task) (r : Replicate) (block : UInt64) (id : String) :
    (p.caughtUp t r block).store.list? id =
      if t.chainTaskId = id then
        (p.store.list? id).map fun l => (p.catchUp? t r block).elim l (l.report r.wallet)
      else p.store.list? id := by
  cases hu : p.catchUp? t r block with
  | none =>
    rw [caughtUp_of_none hu]
    show _ = if _ then (p.store.list? id).map (fun l => l) else _
    rw [Option.map_id', ite_self]
  | some u =>
    rw [caughtUp_of_some hu]
    set q := (p.updateReplicate t.chainTaskId r.wallet u).2
    show (q.after [.publish t.chainTaskId]).store.list? id = _
    rw [after_publish]
    exact p.store.list?_updateReplicate t.chainTaskId r.wallet u id

/-- After the repair the replicate has the report that was missed. -/
theorem replicate?_caughtUp (block : UInt64)
    (hr : p.store.replicate? t.chainTaskId r.wallet = some r) :
    (p.caughtUp t r block).store.replicate? t.chainTaskId r.wallet =
      some (r.reported (p.catchUp? t r block)) := by
  unfold Store.replicate? at hr ⊢
  obtain ⟨l, hl, hfind⟩ := Option.bind_eq_some_iff.1 hr
  rw [list?_caughtUp, if_pos rfl, hl, Option.map_some, Option.bind_some]
  cases p.catchUp? t r block with
  | none => exact hfind
  | some u =>
    show (l.report r.wallet u).find? r.wallet = _
    rw [ReplicateList.find?_report u hfind, if_pos rfl]
    rfl

/-- The last relevant status, read again from the store. -/
theorem attempt_latestRelevant (hr : p.store.replicate? t.chainTaskId r.wallet = some r) :
    (p.caughtUp t r block).attempt (latestRelevant t.chainTaskId r.wallet) =
      (.ok (p.standing? t r block), p.caughtUp t r block) := by
  have hread : (p.caughtUp t r block).attempt (latestRelevant t.chainTaskId r.wallet) =
      (.ok (((p.caughtUp t r block).store.replicate? t.chainTaskId r.wallet).bind
        (·.lastRelevant?)), p.caughtUp t r block) := rfl
  rw [hread, replicate?_caughtUp block hr]
  rfl

/-- Without a repair the standing is the one of the records. -/
theorem standing?_of_none (h : p.catchUp? t r block = none) :
    p.standing? t r block = r.lastRelevant? := by
  unfold standing?
  rw [h]
  rfl

/-- After a repair the standing is the status that was reported by it, which is no mark. -/
theorem standing?_of_some {u : StatusUpdate} (h : p.catchUp? t r block = some u)
    (hu : u.status.isRelevant = true) : p.standing? t r block = some u.status := by
  unfold standing?
  rw [h]
  exact r.lastRelevant?_updateStatus hu

/-! ## The table -/

/-- What is told where there is nothing to report and nothing to publish. -/
theorem told_of_none (hnone : p.catchUp? t r block = none) {i : Option Instruction}
    (hadvice : p.advice t r block = i) (hi : t.phase? = some .contribution → i ≠ some .reveal) :
    ((.ok i, p) : Except PoolError (Option Instruction) × Pool) =
      (.ok (p.advice t r block), p.advised t r block) := by
  unfold advised
  rw [hadvice, if_neg fun h => hi h.1 h.2, caughtUp_of_none hnone]

/-- The same where the table is asked for the place at which the replicate last reported to be. -/
theorem told_of_last (hnone : p.catchUp? t r block = none)
    {f : ReplicateStatus → Option Instruction}
    (hadvice : p.advice t r block = (p.standing? t r block).bind f)
    {last : Option ReplicateStatus} (hlast : r.lastRelevant? = last) {i : Option Instruction}
    (hlookup : last.bind f = i) (hi : t.phase? = some .contribution → i ≠ some .reveal) :
    ((.ok i, p) : Except PoolError (Option Instruction) × Pool) =
      (.ok (p.advice t r block), p.advised t r block) := by
  rw [standing?_of_none hnone, hlast, hlookup] at hadvice
  exact told_of_none hnone hadvice hi

/-- What was missed is read off the chain, in the phase of the task and for one standing only. -/
theorem catchUp?_of_told (p : Pool) (block : UInt64) (htell : t.canTell r = true)
    (hlost : t.isLostFor r = false) :
    p.catchUp? t r block =
      match t.phase?, r.lastRelevant? with
      | some .contribution, some .contributing =>
        ((p.chain.contribution? t.chainTaskId r.wallet).filter (·.isContributed)).map fun c =>
          .byPool p.now .contributed
            (some { Details.ofBlock block with resultHash := some c.resultHash })
      | some .reveal, some .revealing =>
        if (p.chain.contribution? t.chainTaskId r.wallet).any (·.isRevealed) then
          some (.byPool p.now .revealed (some (.ofBlock block)))
        else none
      | some .resultUpload, some .resultUploading =>
        if p.chain.isUploaded t.chainTaskId then
          some (.byPool p.now .resultUploaded (some .none))
        else none
      | _, _ => none := by
  unfold catchUp?
  rw [htell, hlost]
  rfl

/-- What the chain can prove of a replicate, with what is reported then. -/
inductive Proves (p : Pool) (t : Task) (r : Replicate) (block : UInt64) : StatusUpdate → Prop where
  | contributed {c : Contribution} (phase : t.phase? = some .contribution)
      (last : r.lastRelevant? = some .contributing)
      (found : p.chain.contribution? t.chainTaskId r.wallet = some c)
      (made : c.isContributed = true) :
      Proves p t r block (.byPool p.now .contributed
        (some { Details.ofBlock block with resultHash := some c.resultHash }))
  | revealed {c : Contribution} (phase : t.phase? = some .reveal)
      (last : r.lastRelevant? = some .revealing)
      (found : p.chain.contribution? t.chainTaskId r.wallet = some c)
      (made : c.isRevealed = true) :
      Proves p t r block (.byPool p.now .revealed (some (.ofBlock block)))
  | uploaded (phase : t.phase? = some .resultUpload)
      (last : r.lastRelevant? = some .resultUploading)
      (found : p.chain.isUploaded t.chainTaskId = true) :
      Proves p t r block (.byPool p.now .resultUploaded (some .none))

/-- Only what the chain proves is reported, and only where something can be told. -/
theorem catchUp?_eq_some {u : StatusUpdate} (h : p.catchUp? t r block = some u) :
    t.canTell r = true ∧ t.isLostFor r = false ∧ p.Proves t r block u := by
  unfold catchUp? at h
  split at h
  · exact absurd h (by simp)
  next htold =>
  rw [Bool.not_eq_true, Bool.or_eq_false_iff, Bool.not_eq_false'] at htold
  refine ⟨htold.1, htold.2, ?_⟩
  dsimp only at h
  split at h
  · next hphase hlast =>
    obtain ⟨c, hc, rfl⟩ := Option.map_eq_some_iff.1 h
    obtain ⟨hfound, hmade⟩ := Option.filter_eq_some_iff.1 hc
    exact .contributed hphase hlast hfound hmade
  · next hphase hlast =>
    split at h
    · next hproved =>
      obtain ⟨c, hfound, hmade⟩ := (Option.any_eq_true _ _).1 hproved
      obtain rfl := Option.some.inj h
      exact .revealed hphase hlast hfound hmade
    · exact absurd h (by simp)
  · next hphase hlast =>
    split at h
    · next hfound =>
      obtain rfl := Option.some.inj h
      exact .uploaded hphase hlast hfound
    · exact absurd h (by simp)
  · exact absurd h (by simp)

/-- What the chain proves is always a status that describes where a replicate stands. -/
theorem Proves.isRelevant {u : StatusUpdate} (h : p.Proves t r block u) :
    u.status.isRelevant = true ∧ u.status.isRecoverable = true := by
  cases h <;> exact ⟨rfl, rfl⟩

/-- Nothing is proved for a task whose result is there already. -/
theorem Proves.phase {u : StatusUpdate} (h : p.Proves t r block u) :
    ∃ phase, t.phase? = some phase ∧ phase ≠ .completion := by
  cases h with
  | contributed phase => exact ⟨_, phase, by decide⟩
  | revealed phase => exact ⟨_, phase, by decide⟩
  | uploaded phase => exact ⟨_, phase, by decide⟩

/-- Whether there is something to report does not depend on the block. -/
theorem catchUp?_eq_none (h : p.catchUp? t r block = none) (block' : UInt64) :
    p.catchUp? t r block' = none := by
  cases h' : p.catchUp? t r block' with
  | none => rfl
  | some u =>
    obtain ⟨htell, hlost, hproves⟩ := catchUp?_eq_some h'
    rw [catchUp?_of_told p block htell hlost] at h
    cases hproves with
    | contributed phase last found made =>
      rw [phase, last, found] at h
      dsimp only at h
      rw [Option.filter_some_pos made] at h
      exact absurd h (by simp)
    | revealed phase last found made =>
      rw [phase, last, found] at h
      dsimp only at h
      rw [Option.any_some, if_pos made] at h
      exact absurd h (by simp)
    | uploaded phase last found =>
      rw [phase, last] at h
      dsimp only at h
      rw [if_pos found] at h
      exact absurd h (by simp)

/-- Who is told something is one that can be told. -/
theorem canTell_of_advice {i : Instruction} (h : p.advice t r block = some i) :
    t.canTell r = true := by
  cases htell : t.canTell r with
  | true => rfl
  | false =>
    unfold advice at h
    rw [htell] at h
    exact absurd h (by simp)

/-- Apart from a completed task, the advice is read off the phase and the standing. -/
theorem advice_of_phase (p : Pool) (block : UInt64) (htell : t.canTell r = true)
    (hlost : t.isLostFor r = false)
    {phase : TaskPhase} (hphase : t.phase? = some phase) (hcompletion : phase ≠ .completion) :
    p.advice t r block =
      (p.standing? t r block).bind (phase.instruction? (p.isAgreed t r block)) := by
  unfold advice
  rw [htell, hlost, hphase, if_neg (by simp), if_neg (by simp), if_neg (by simpa using hcompletion)]
  rfl

/-- Only while contributions are awaited the advice may publish the task. -/
theorem advised_of_phase (hphase : t.phase? ≠ some .contribution) :
    p.advised t r block = p.caughtUp t r block := by
  unfold advised
  rw [if_neg fun h => hphase h.1]

/-! ## While contributions are awaited -/

/-- An open task awaits contributions. -/
theorem phase?_of_isOpen (h : t.status.isOpen = true) : t.phase? = some .contribution := by
  unfold Task.phase?
  revert h
  cases t.status <;> decide

section Contribution

variable (hphase : t.phase? = some .contribution)

include hphase

/-- A task that awaits contributions is lost for nobody. -/
theorem isLostFor_of_contribution : t.isLostFor r = false := by
  unfold Task.phase? at hphase
  unfold Task.isLostFor
  revert hphase
  cases t.status with
  | initialized => exact fun _ => rfl
  | running => exact fun _ => rfl
  | _ => exact fun h => absurd h (by decide)

variable (htell : t.canTell r = true)
  (hr : p.store.replicate? t.chainTaskId r.wallet = some r)

include htell hr

/-- What is told to a worker that is past its contribution. -/
theorem attempt_afterContribution (block : UInt64)
    (hpast : ∀ s, p.standing? t r block = some s → ¬ s ≤ .contributing) :
    (p.caughtUp t r block).attempt (afterContribution t r) =
      (.ok (p.advice t r block), p.advised t r block) := by
  have hfound := replicate?_caughtUp block hr
  have hadvice : p.advice t r block = (p.standing? t r block).bind
      (TaskPhase.contribution.instruction? (p.isAgreed t r block)) :=
    advice_of_phase p block htell (isLostFor_of_contribution hphase) hphase (by decide)
  unfold afterContribution
  rw [attempt_bind_ok (attempt_latestRelevant hr), attempt_ite]
  by_cases hstanding : p.standing? t r block = some .contributed
  · obtain ⟨l, hl, -⟩ := Option.bind_eq_some_iff.1 hfound
    have hget : (p.caughtUp t r block).attempt (stored (Collaborators.getList t.chainTaskId)) =
        (.ok (some l), p.caughtUp t r block) := by
      rw [← hl]
      rfl
    have hagreed : p.isAgreed t r block = p.hasConsensus l := by
      unfold isAgreed
      rw [hl, Option.any_some]
    have hreached : (p.caughtUp t r block).attempt (certain (isConsensusReached l)) =
        (.ok (p.isAgreed t r block), p.caughtUp t r block) := by
      rw [attempt_certain, perform_isConsensusReached, hagreed,
        (Recovered.of_leads (p.leads_caughtUp t r block)).hasConsensus]
    rw [hstanding, Option.bind_some] at hadvice
    rw [hstanding, if_neg (by simp), attempt_bind_ok hget]
    dsimp only
    rw [attempt_bind_ok hreached, attempt_ite]
    unfold advised
    rw [hadvice]
    cases p.isAgreed t r block with
    | true =>
      rw [if_pos rfl, if_pos ⟨hphase, rfl⟩]
      rfl
    | false =>
      rw [if_neg (by simp), if_neg (by simp [TaskPhase.instruction?])]
      rfl
  · -- past the contribution, there is nothing to say
    have hnone : p.advice t r block = none := by
      rw [hadvice]
      cases hs : p.standing? t r block with
      | none => rfl
      | some s =>
        have hs' := hpast s hs
        rw [Option.bind_some]
        cases s with
        | created => exact absurd (by decide) hs'
        | contributing => exact absurd (by decide) hs'
        | contributed => exact absurd hs hstanding
        | _ => rfl
    unfold advised
    rw [hnone, if_pos (by simpa using hstanding), if_neg (by simp)]
    rfl

/-- In the contribution phase the service gives the advice, with the repair before it. -/
theorem attempt_inContribution :
    p.attempt (inContribution t r block) = (.ok (p.advice t r block), p.advised t r block) := by
  have hlost : t.isLostFor r = false := isLostFor_of_contribution hphase
  have hcatchUp := catchUp?_of_told p block htell hlost
  have hadvice := advice_of_phase p block htell hlost hphase (by decide)
  rw [hphase] at hcatchUp
  unfold inContribution
  cases hlast : r.lastRelevant? with
  | none =>
    rw [hlast] at hcatchUp
    exact told_of_last hcatchUp hadvice hlast rfl fun _ => by decide
  | some last =>
    rw [hlast] at hcatchUp
    dsimp only
    rw [attempt_ite]
    split
    · next hbefore =>
      obtain rfl : last = .created := by
        revert hbefore
        cases last <;> decide
      exact told_of_last hcatchUp hadvice hlast rfl fun _ => by decide
    next hbefore =>
    rw [attempt_ite]
    split
    · next hcontributing =>
      subst hcontributing
      have hread : p.attempt (contributionOf t r) =
          (.ok (p.chain.contribution? t.chainTaskId r.wallet), p) := rfl
      rw [attempt_bind_ok hread]
      cases hc : (p.chain.contribution? t.chainTaskId r.wallet).filter (·.isContributed) with
      | none =>
        dsimp only at hcatchUp
        rw [hc, Option.map_none] at hcatchUp
        exact told_of_last hcatchUp hadvice hlast rfl fun _ => by decide
      | some c =>
        dsimp only at hcatchUp ⊢
        rw [hc, Option.map_some] at hcatchUp
        rw [attempt_bind_ok (attempt_repair ..), ← caughtUp_of_some hcatchUp]
        refine attempt_afterContribution hphase htell hr block fun s hs => ?_
        rw [standing?_of_some hcatchUp rfl] at hs
        obtain rfl := Option.some.inj hs
        show ¬ ReplicateStatus.contributed ≤ .contributing
        decide
    · next hcontributing =>
      have hnone : p.catchUp? t r block = none := by
        rw [hcatchUp]
        cases last with
        | contributing => exact absurd rfl hcontributing
        | _ => rfl
      have hafter := attempt_afterContribution hphase htell hr block fun s hs => by
        rw [standing?_of_none hnone, hlast] at hs
        obtain rfl := Option.some.inj hs
        revert hbefore hcontributing
        cases last <;> decide
      rw [caughtUp_of_none hnone] at hafter
      exact hafter

end Contribution

/-! ## After the contributions -/

section Told

variable (htell : t.canTell r = true) (hlost : t.isLostFor r = false)
  (hr : p.store.replicate? t.chainTaskId r.wallet = some r)

include htell hlost

section

include hr

/-- What is told to a worker that is past its reveal. -/
theorem attempt_afterReveal (hphase : t.phase? = some .reveal) (block : UInt64)
    (hpast : ∀ s, p.standing? t r block = some s → s ≠ .contributed ∧ s ≠ .revealing) :
    (p.caughtUp t r block).attempt (afterReveal t r) =
      (.ok (p.advice t r block), p.advised t r block) := by
  have hadvice := advice_of_phase p block htell hlost hphase (by decide)
  unfold afterReveal
  rw [attempt_bind_ok (attempt_latestRelevant hr), hadvice, advised_of_phase (by simp [hphase])]
  cases hs : p.standing? t r block with
  | none => rfl
  | some s =>
    cases s with
    | contributed => exact absurd rfl (hpast _ hs).1
    | revealing => exact absurd rfl (hpast _ hs).2
    | _ => rfl

theorem attempt_inReveal (hphase : t.phase? = some .reveal) :
    p.attempt (inReveal t r block) = (.ok (p.advice t r block), p.advised t r block) := by
  have hcatchUp := catchUp?_of_told p block htell hlost
  have hadvice := advice_of_phase p block htell hlost hphase (by decide)
  have hcontribution : t.phase? ≠ some .contribution := by simp [hphase]
  rw [hphase] at hcatchUp
  unfold inReveal
  cases hlast : r.lastRelevant? with
  | none =>
    rw [hlast] at hcatchUp
    exact told_of_last hcatchUp hadvice hlast rfl fun h => absurd h hcontribution
  | some last =>
    rw [hlast] at hcatchUp
    by_cases hrevealing : last = .revealing
    · subst hrevealing
      have hread : p.attempt (contributionOf t r) =
          (.ok (p.chain.contribution? t.chainTaskId r.wallet), p) := rfl
      dsimp only at hcatchUp ⊢
      rw [attempt_bind_ok hread, attempt_ite]
      split
      · next hrevealed =>
        rw [if_pos hrevealed] at hcatchUp
        rw [attempt_bind_ok (attempt_repair ..), ← caughtUp_of_some hcatchUp]
        refine attempt_afterReveal htell hlost hr hphase block fun s hs => ?_
        rw [standing?_of_some hcatchUp rfl] at hs
        obtain rfl := Option.some.inj hs
        exact ⟨by simp [StatusUpdate.byPool], by simp [StatusUpdate.byPool]⟩
      · next hunproved =>
        rw [if_neg hunproved] at hcatchUp
        exact told_of_last hcatchUp hadvice hlast rfl fun h => absurd h hcontribution
    · have hnone : p.catchUp? t r block = none := by
        rw [hcatchUp]
        cases last with
        | revealing => exact absurd rfl hrevealing
        | _ => rfl
      by_cases hcontributed : last = .contributed
      · subst hcontributed
        exact told_of_last hnone hadvice hlast rfl fun h => absurd h hcontribution
      · have hafter := attempt_afterReveal htell hlost hr hphase block fun s hs => by
          rw [standing?_of_none hnone, hlast] at hs
          obtain rfl := Option.some.inj hs
          exact ⟨hcontributed, hrevealing⟩
        rw [caughtUp_of_none hnone] at hafter
        cases last with
        | revealing => exact absurd rfl hrevealing
        | contributed => exact absurd rfl hcontributed
        | _ => exact hafter

end

theorem attempt_inResultUpload (hphase : t.phase? = some .resultUpload) :
    p.attempt (inResultUpload t r) = (.ok (p.advice t r block), p.advised t r block) := by
  have hcatchUp := catchUp?_of_told p block htell hlost
  have hadvice := advice_of_phase p block htell hlost hphase (by decide)
  have hcontribution : t.phase? ≠ some .contribution := by simp [hphase]
  rw [hphase] at hcatchUp
  unfold inResultUpload
  cases hlast : r.lastRelevant? with
  | none =>
    rw [hlast] at hcatchUp
    exact told_of_last hcatchUp hadvice hlast rfl fun h => absurd h hcontribution
  | some last =>
    rw [hlast] at hcatchUp
    by_cases huploading : last = .resultUploading
    · subst huploading
      have hread : p.attempt (certain (Collaborators.isResultUploaded t.chainTaskId)) =
          (.ok (p.chain.isUploaded t.chainTaskId), p) := rfl
      dsimp only at hcatchUp ⊢
      rw [attempt_bind_ok hread, attempt_ite]
      split
      · next huploaded =>
        rw [if_pos huploaded] at hcatchUp
        rw [attempt_bind_ok (attempt_repair ..), ← caughtUp_of_some hcatchUp, hadvice,
          advised_of_phase hcontribution, standing?_of_some hcatchUp rfl]
        rfl
      · next hmissing =>
        rw [if_neg hmissing] at hcatchUp
        exact told_of_last hcatchUp hadvice hlast rfl fun h => absurd h hcontribution
    · have hnone : p.catchUp? t r block = none := by
        rw [hcatchUp]
        cases last with
        | resultUploading => exact absurd rfl huploading
        | _ => rfl
      cases last with
      | resultUploading => exact absurd rfl huploading
      | _ => exact told_of_last hnone hadvice hlast rfl fun h => absurd h hcontribution

/-- A completed task needs no repair; the advice rests on the records alone. -/
theorem attempt_inCompletion (hphase : t.phase? = some .completion) :
    p.attempt (inCompletion r) = (.ok (p.advice t r block), p.advised t r block) := by
  have hnone : p.catchUp? t r block = none := by
    rw [catchUp?_of_told p block htell hlost, hphase]
  have hadvice : p.advice t r block = p.completion? r := by
    unfold advice
    rw [htell, hlost, hphase, if_neg (by simp), if_neg (by simp), if_pos rfl]
  have hread : p.attempt (stored (Collaborators.getTask r.chainTaskId)) =
      (.ok (p.store.task? r.chainTaskId), p) := rfl
  rw [← told_of_none hnone hadvice fun h => absurd (hphase.symm.trans h) (by decide)]
  unfold inCompletion completion?
  rw [attempt_bind_ok hread]
  cases p.store.task? r.chainTaskId with
  | none => rw [Option.map_none, ite_self]; rfl
  | some stored =>
    dsimp only
    rw [attempt_ite]
    cases r.reached .revealed with
    | true => rfl
    | false => rfl

end Told

/-! ## The service -/

/-- The service answers by the table, and leaves what the table says. -/
theorem attempt_instructionFor (hr : p.store.replicate? t.chainTaskId r.wallet = some r)
    (block : UInt64) :
    p.attempt (instructionFor t r block) = (.ok (p.advice t r block), p.advised t r block) := by
  have htell : (r.history.isEmpty || t.tee && !t.hasEnclaveChallenge) = !t.canTell r := by
    unfold Task.canTell
    rw [Bool.not_and, Bool.not_not, Bool.not_or, Bool.not_not]
  unfold instructionFor
  rw [htell, attempt_ite]
  split
  · next hsilent =>
    have hnone : p.catchUp? t r block = none := by
      unfold catchUp?
      rw [hsilent]
      rfl
    have hadvice : p.advice t r block = none := by
      unfold advice
      rw [if_pos hsilent]
    exact told_of_none hnone hadvice fun _ => by decide
  next hspeaks =>
  have htell : t.canTell r = true := by simpa using hspeaks
  rw [attempt_ite]
  split
  · next hphase => exact attempt_inContribution hphase htell hr
  next hcontribution =>
  rw [attempt_ite]
  split
  · next hlost =>
    have hlost : t.isLostFor r = true := hlost
    have hnone : p.catchUp? t r block = none := by
      unfold catchUp?
      rw [hlost, Bool.or_true]
      rfl
    have hadvice : p.advice t r block = some .abort := by
      unfold advice
      rw [htell, hlost]
      rfl
    exact told_of_none hnone hadvice fun _ => by decide
  next hkept =>
  have hlost : t.isLostFor r = false := Bool.not_eq_true _ ▸ hkept
  cases hphase : t.phase? with
  | none =>
    have hnone : p.catchUp? t r block = none := by rw [catchUp?_of_told p block htell hlost, hphase]
    have hadvice : p.advice t r block = none := by
      unfold advice
      rw [htell, hlost, hphase]
      rfl
    exact told_of_none hnone hadvice fun _ => by decide
  | some phase =>
    cases phase with
    | contribution => exact absurd hphase hcontribution
    | reveal => exact attempt_inReveal htell hlost hr hphase
    | resultUpload => exact attempt_inResultUpload htell hlost hphase
    | completion => exact attempt_inCompletion htell hlost hphase

/-- Only a worker whose task went on without it is told to abort. -/
theorem isLostFor_of_abort (h : p.advice t r block = some .abort) : t.isLostFor r = true := by
  have htable : ∀ agreed (phase : TaskPhase) s, phase.instruction? agreed s ≠ some .abort := by
    intro agreed phase s
    revert agreed
    cases phase <;> cases s <;> decide
  cases hlost : t.isLostFor r with
  | true => rfl
  | false =>
    unfold advice at h
    rw [hlost, if_neg (by simp : ¬ (false = true))] at h
    split at h
    · exact absurd h (by simp)
    split at h
    · unfold completion? at h
      split at h
      · obtain ⟨stored, -, hstored⟩ := Option.map_eq_some_iff.1 h
        split at hstored
        · exact absurd hstored (by simp)
        · exact absurd hstored (by simp)
      · exact absurd h (by simp)
    · obtain ⟨phase, -, h⟩ := Option.bind_eq_some_iff.1 h
      obtain ⟨s, -, h⟩ := Option.bind_eq_some_iff.1 h
      exact absurd h (htable _ phase s)

/-- What goes along with an instruction. The cause of an abort is always known. -/
theorem perform_extraOf {i : Instruction} (hi : p.advice t r block = some i) (q : Pool)
    (wallet : String) : q.perform (extraOf t wallet i) = (t.extraFor q.signer wallet i, q) := by
  cases i with
  | abort =>
    have hlost := isLostFor_of_abort hi
    have hcause : t.status.abortCause =
        if t.status = .contributionTimeout then .contributionTimeout else .consensusReached := by
      unfold Task.isLostFor at hlost
      cases hs : t.status with
      | contributionTimeout => rfl
      | consensusReached => rfl
      | _ => exact absurd (hs ▸ hlost) (by simp)
    show ({ Extra.none with abortCause := some t.status.abortCause }, q) = _
    rw [hcause]
    rfl
  | _ => rfl

/-- Recovery follows its table, for every task and every replicate as it is stored: it answers
`advice`, it brings the replicate up to date and publishes the task as `advised` says, and what
goes along with the answer is `extraFor`. -/
theorem recovery_by_table (hr : p.store.replicate? t.chainTaskId r.wallet = some r)
    (block : UInt64) :
    p.attempt (instructionFor t r block) = (.ok (p.advice t r block), p.advised t r block) ∧
      ∀ i, p.advice t r block = some i →
        (p.advised t r block).perform (extraOf t r.wallet i) =
          (t.extraFor p.signer r.wallet i, p.advised t r block) := by
  refine ⟨attempt_instructionFor hr block, fun i hi => ?_⟩
  rw [perform_extraOf hi, (Recovered.of_leads (p.leads_advised t r block)).signer]

/-- An open task whose contributions are due after an hour, and the whole after a day. -/
def hourly : Task :=
  { (Task.plain "0x1").changeStatus .epoch .initialized with
    contributionDeadline := ⟨3600, 0, by decide⟩ }

/-- A pool in which a replicate contributed on chain and never said so. With it there is a
consensus. -/
def unreported : Pool := blank.after [
  .insertTask hourly,
  .createList "0x1",
  .addReplicate (.empty "0x1") "0xa",
  .updateReplicate "0x1" "0xa" (.byWorker .epoch .contributing none),
  .addWorker (.fresh .epoch "0xa" 1),
  .addWork "0xa" "0x1",
  .changeChain fun c =>
    (c.setTask { ChainTask.plain "0x1" with
      status := .revealing, winnerCounter := 1, consensusValue := "0xh" }).setContribution
      "0x1" "0xa" ⟨.contributed, "0xh", "", ""⟩]

/-- A worker was disconnected after it had contributed and before it could say so: the chain proves
the contribution, and the worker is told to reveal. -/
theorem recovery_by_table_unreported :
    let r := (Replicate.fresh .epoch "0xa" "0x1").updateStatus (.byWorker .epoch .contributing none)
    unreported.store.task? "0x1" = some hourly ∧
      unreported.store.replicate? hourly.chainTaskId r.wallet = some r ∧
      unreported.attempt (instructionFor hourly r 7) =
        (.ok (some .reveal), unreported.advised hourly r 7) ∧
      ((unreported.advised hourly r 7).store.replicate? "0x1" "0xa").bind (·.lastRelevant?) =
        some .contributed := by
  intro r
  have hr : unreported.store.replicate? hourly.chainTaskId r.wallet = some r := rfl
  have hadvice : unreported.advice hourly r 7 = some .reveal := by decide
  refine ⟨rfl, hr, ?_, by decide⟩
  rw [← hadvice]
  exact (recovery_by_table hr 7).1

end Pool

end ComputePool
