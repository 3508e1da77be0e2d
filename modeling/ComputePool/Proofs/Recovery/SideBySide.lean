import ComputePool.Proofs.Recovery.Advice
import ComputePool.Proofs.Recovery.Annotated

/-!
# Recovery side by side

Recovery is run on two pools, one of which has marks in the histories of its replicates. Each call
answers the same in both, or answers a record and its annotated form, and leaves one pool annotated
as the other (`Parallel`). That passes from calls to sequences of calls (`Parallel.bind`), so the
two runs go the same way through every branch, the repairs and what is read back after them
included, and the worker is told the same: `marks_invisible`.
-/

namespace ComputePool

namespace Pool

variable {α β γ δ : Type}

/-- Both runs ended the same way, with answers that are related. -/
inductive Agree (S : α → β → Prop) :
    Except PoolError α × Pool → Except PoolError β × Pool → Prop where
  | ok {a : α} {b : β} {q q' : Pool} (hs : S a b) (hq : q.Annotated q') :
    Agree S (.ok a, q) (.ok b, q')
  | error (e : PoolError) {q q' : Pool} (hq : q.Annotated q') : Agree S (.error e, q) (.error e, q')

/-- On a pool and on the annotated pool, the two sequences of calls end the same way. -/
def Parallel (S : α → β → Prop) (x : Fallible (StateM Pool) α) (y : Fallible (StateM Pool) β) :
    Prop :=
  ∀ ⦃p p' : Pool⦄, p.Annotated p' → Agree S (p.attempt x) (p'.attempt y)

namespace Parallel

variable {S : α → β → Prop} {T : γ → δ → Prop}

/-- What is given without a call is given on both sides. -/
protected theorem pure {a : α} {b : β} (hs : S a b) : Parallel S (pure a) (pure b) :=
  fun _ _ h => .ok hs h

/-- Parts that run alike one after the other run alike together. -/
theorem bind {x : Fallible (StateM Pool) α} {y : Fallible (StateM Pool) β}
    {f : α → Fallible (StateM Pool) γ} {g : β → Fallible (StateM Pool) δ} (hxy : Parallel S x y)
    (hfg : ∀ a b, S a b → Parallel T (f a) (g b)) : Parallel T (x >>= f) (y >>= g) := by
  intro p p' h
  have hagree := hxy h
  rw [attempt_bind, attempt_bind]
  generalize p.attempt x = run at hagree ⊢
  generalize p'.attempt y = run' at hagree ⊢
  cases hagree with
  | ok hs hq => exact hfg _ _ hs hq
  | error e hq => exact .error e hq

/-- A call that only reads. -/
theorem read {x : Fallible (StateM Pool) α} {f : Pool → α}
    (hx : ∀ p : Pool, p.attempt x = (.ok (f p), p)) {R : α → α → Prop}
    (hf : ∀ p p' : Pool, p.Annotated p' → R (f p) (f p')) : Parallel R x x := by
  intro p p' h
  rw [hx, hx]
  exact .ok (hf p p' h) h

end Parallel

/-! ## The calls of recovery -/

variable {t : Task} {r r' : Replicate} (id wallet : String)

/-- A mark is written on both sides. -/
theorem parallel_mark (status : ReplicateStatus) (details : Option Details) :
    Parallel (· = ·) (mark id wallet status details) (mark id wallet status details) := by
  intro p p' h
  have hnow : p'.now = p.now := by rw [h.others]
  have hmark : ∀ q : Pool, q.attempt (mark id wallet status details) =
      (.ok (), (q.updateReplicate id wallet (.byPool q.now status details)).2) := fun _ => rfl
  rw [hmark, hmark, hnow]
  exact .ok rfl (h.updateReplicate id wallet _)

/-- A task is published on both sides, or refused on both. -/
theorem parallel_publish : Parallel (· = ·)
    (certain (Publisher.publish (m := StateM Pool) id)) (certain (Publisher.publish id)) := by
  intro p p' h
  obtain ⟨hsame, hq⟩ := h.publish id
  rw [attempt_certain, attempt_certain]
  exact .ok hsame.symm hq

/-- A repair is made on both sides. -/
theorem parallel_repair (status : ReplicateStatus) (details : Details) :
    Parallel (· = ·) (repair (m := StateM Pool) id wallet status details)
      (repair id wallet status details) :=
  (parallel_mark id wallet status _).bind fun _ _ _ =>
    (parallel_publish id).bind fun _ _ _ => .pure rfl

/-- Where the stored replicate stands is read past the marks. -/
theorem parallel_latestRelevant :
    Parallel (· = ·) (latestRelevant (m := StateM Pool) id wallet) (latestRelevant id wallet) := by
  refine .read (f := fun p => (p.store.replicate? id wallet).bind (·.lastRelevant?)) (fun _ => rfl)
    fun p p' h => ?_
  have hr := h.replicate? id wallet
  generalize p.store.replicate? id wallet = r at hr ⊢
  generalize p'.store.replicate? id wallet = r' at hr ⊢
  cases hr with
  | none => rfl
  | some hr => exact hr.lastRelevant?.symm

/-- Both sides ask the chain for the same contribution. -/
theorem parallel_contributionOf (hr : r.Annotated r') :
    Parallel (· = ·) (contributionOf (m := StateM Pool) t r) (contributionOf t r') := by
  unfold contributionOf
  rw [hr.wallet]
  refine .read (f := fun p => p.chain.contribution? t.chainTaskId r.wallet) (fun _ => rfl)
    fun p p' h => ?_
  rw [h.others]

/-- The list of a task is read past the marks. -/
theorem parallel_getList : Parallel (Option.Rel ReplicateList.Annotated)
    (stored (m := StateM Pool) (Collaborators.getList id)) (stored (Collaborators.getList id)) :=
  .read (f := fun p => p.store.list? id) (fun _ => rfl) fun _ _ h => h.lists id

/-- Both sides see the same consensus, since winners are counted by standing. -/
theorem parallel_isConsensusReached {l l' : ReplicateList} (hl : l.Annotated l') :
    Parallel (· = ·) (certain (isConsensusReached (m := StateM Pool) l))
      (certain (isConsensusReached l')) := by
  intro p p' h
  rw [attempt_certain, attempt_certain, perform_isConsensusReached, perform_isConsensusReached]
  refine .ok ?_ h
  have hchain : p'.chain = p.chain := by rw [h.others]
  show p.hasConsensus l = p'.hasConsensus l'
  unfold hasConsensus
  rw [hl.chainTaskId, hchain]
  congr 1
  funext c
  exact (hl.agreesWith c).symm

/-! ## Each phase -/

theorem parallel_afterContribution (hr : r.Annotated r') :
    Parallel (· = ·) (afterContribution (m := StateM Pool) t r) (afterContribution t r') := by
  unfold afterContribution
  rw [hr.wallet]
  refine (parallel_latestRelevant t.chainTaskId r.wallet).bind ?_
  rintro last _ rfl
  split
  · exact .pure rfl
  · refine (parallel_getList t.chainTaskId).bind fun l l' hl => ?_
    cases hl with
    | none => exact .pure rfl
    | some hl =>
      refine (parallel_isConsensusReached hl).bind ?_
      rintro agreed _ rfl
      split
      · exact (parallel_publish t.chainTaskId).bind fun _ _ _ => .pure rfl
      · exact .pure rfl

theorem parallel_inContribution (hr : r.Annotated r') (block : UInt64) :
    Parallel (· = ·) (inContribution (m := StateM Pool) t r block) (inContribution t r' block) := by
  have hafter := parallel_afterContribution (t := t) hr
  unfold inContribution
  rw [hr.lastRelevant?, hr.wallet]
  split
  · exact .pure rfl
  · split
    · exact .pure rfl
    · split
      · refine (parallel_contributionOf hr).bind ?_
        rintro c _ rfl
        split
        · exact .pure rfl
        · exact (parallel_repair t.chainTaskId r.wallet _ _).bind fun _ _ _ => hafter
      · exact hafter

theorem parallel_afterReveal (hr : r.Annotated r') :
    Parallel (· = ·) (afterReveal (m := StateM Pool) t r) (afterReveal t r') := by
  unfold afterReveal
  rw [hr.wallet]
  refine (parallel_latestRelevant t.chainTaskId r.wallet).bind ?_
  rintro last _ rfl
  split
  · exact .pure rfl
  · exact .pure rfl
  · exact .pure rfl

theorem parallel_inReveal (hr : r.Annotated r') (block : UInt64) :
    Parallel (· = ·) (inReveal (m := StateM Pool) t r block) (inReveal t r' block) := by
  have hafter := parallel_afterReveal (t := t) hr
  unfold inReveal
  rw [hr.lastRelevant?, hr.wallet]
  split
  · exact .pure rfl
  · exact .pure rfl
  · refine (parallel_contributionOf hr).bind ?_
    rintro c _ rfl
    split
    · exact (parallel_repair t.chainTaskId r.wallet _ _).bind fun _ _ _ => hafter
    · exact .pure rfl
  · exact hafter

theorem parallel_inResultUpload (hr : r.Annotated r') :
    Parallel (· = ·) (inResultUpload (m := StateM Pool) t r) (inResultUpload t r') := by
  unfold inResultUpload
  rw [hr.lastRelevant?, hr.wallet]
  split
  · exact .pure rfl
  · have huploaded : Parallel (· = ·)
        (certain (Collaborators.isResultUploaded (m := StateM Pool) t.chainTaskId))
        (certain (Collaborators.isResultUploaded t.chainTaskId)) :=
      .read (f := fun p => p.chain.isUploaded t.chainTaskId) (fun _ => rfl)
        fun p p' h => by rw [h.others]
    refine huploaded.bind ?_
    rintro uploaded _ rfl
    split
    · exact (parallel_repair t.chainTaskId r.wallet _ _).bind fun _ _ _ => .pure rfl
    · exact .pure rfl
  · exact .pure rfl
  · exact .pure rfl

theorem parallel_inCompletion (hr : r.Annotated r') :
    Parallel (· = ·) (inCompletion (m := StateM Pool) r) (inCompletion r') := by
  unfold inCompletion
  rw [hr.chainTaskId, hr.reached (s := .revealed) rfl]
  have htask : Parallel (· = ·)
      (stored (Collaborators.getTask (m := StateM Pool) r.chainTaskId))
      (stored (Collaborators.getTask r.chainTaskId)) :=
    .read (f := fun p => p.store.task? r.chainTaskId) (fun _ => rfl)
      fun p p' h => by rw [h.others]; rfl
  refine htask.bind ?_
  rintro stored _ rfl
  split
  · exact .pure rfl
  · split
    · exact .pure rfl
    · exact .pure rfl

/-- The worker of a replicate that has a history is told the same. -/
theorem parallel_instructionFor (hr : r.Annotated r') (hne : r.history ≠ []) (block : UInt64) :
    Parallel (· = ·) (instructionFor (m := StateM Pool) t r block) (instructionFor t r' block) := by
  have hempty : r'.history.isEmpty = r.history.isEmpty := by
    rw [List.isEmpty_eq_false_iff.2 hne, List.isEmpty_eq_false_iff.2 (hr.history.ne_nil hne)]
  unfold instructionFor
  rw [hempty, hr.reached (s := .contributed) rfl]
  split
  · exact .pure rfl
  · split
    · exact parallel_inContribution hr block
    · split
      · exact .pure rfl
      · split
        · exact parallel_inReveal hr block
        · exact parallel_inResultUpload hr
        · exact parallel_inCompletion hr
        · exact .pure rfl

/-- Marks have no influence on recovery and consensus, at whatever places of a history they are.

* A replicate is found to stand where it stands without them, and it reached the same statuses other
  than the marks themselves.
* The counts by which consensus is decided are the same over the list of replicates, and so is its
  consensus with any chain.
* The worker of a replicate that has a history is told the same for every task, whatever the pool
  and the chain are; what is left differs in marks alone. -/
theorem marks_invisible {p p' : Pool} {l l' : ReplicateList} (hp : p.Annotated p')
    (hl : l.Annotated l') (hr : r.Annotated r') (hne : r.history ≠ []) :
    (r'.lastRelevant? = r.lastRelevant? ∧ (∀ s, r'.isBefore s = r.isBefore s) ∧
      r'.isRecoverable = r.isRecoverable ∧
      ∀ s, s ≠ .workerLost → s ≠ .recovering → r'.reached s = r.reached s) ∧
    ((∀ hash, l'.winnerCount hash = l.winnerCount hash) ∧
      (∀ statuses, l'.relevantCount statuses = l.relevantCount statuses) ∧
      ∀ c, l'.agreesWith c = l.agreesWith c) ∧
    ∀ t block,
      (p'.attempt (instructionFor t r' block)).1 = (p.attempt (instructionFor t r block)).1 ∧
      (p.attempt (instructionFor t r block)).2.Annotated
        (p'.attempt (instructionFor t r' block)).2 := by
  refine ⟨⟨hr.lastRelevant?, fun s => ?_, ?_, fun s hlost hrecovering => hr.reached ?_⟩,
    ⟨hl.winnerCount, hl.relevantCount, hl.agreesWith⟩, fun t block => ?_⟩
  · unfold Replicate.isBefore
    rw [hr.lastRelevant?]
  · unfold Replicate.isRecoverable
    rw [hr.lastRelevant?]
  · unfold ReplicateStatus.isRelevant
    split
    · exact absurd rfl hlost
    · exact absurd rfl hrecovering
    · rfl
  · have hagree := parallel_instructionFor (t := t) hr hne block hp
    generalize p.attempt (instructionFor t r block) = run at hagree ⊢
    generalize p'.attempt (instructionFor t r' block) = run' at hagree ⊢
    cases hagree with
    | ok hs hq =>
      subst hs
      exact ⟨rfl, hq⟩
    | error e hq => exact ⟨rfl, hq⟩

/-- The worker was lost before it began to contribute, came back, and is lost again. It is still
told to reveal, once its contribution was found on the chain. -/
theorem marks_invisible_unreported :
    ∃ (p' : Pool) (l l' : ReplicateList) (r r' : Replicate),
      unreported.store.list? "0x1" = some l ∧ l.replicates = [r] ∧
      p'.store.list? "0x1" = some l' ∧ l'.replicates = [r'] ∧
      r.history.map (·.status) = [.created, .contributing] ∧
      r'.history.map (·.status) = [.created, .workerLost, .recovering, .contributing, .workerLost] ∧
      r'.status = .workerLost ∧
      (p'.attempt (instructionFor hourly r' 7)).1 = .ok (some .reveal) := by
  set r := (Replicate.fresh .epoch "0xa" "0x1").updateStatus (.byWorker .epoch .contributing none)
  set lost := StatusUpdate.byPool .epoch .workerLost none
  set told := StatusUpdate.byPool .epoch .recovering none
  set r' : Replicate := { r with
    status := .workerLost
    history :=
      [.byPool .epoch .created none, lost, told, .byWorker .epoch .contributing none, lost] }
  set l' : ReplicateList := ⟨"0x1", 2, [r']⟩
  have hr : r.Annotated r' :=
    ⟨.keep _ (.mark _ rfl (.mark _ rfl (.keep _ (.mark _ rfl .nil)))), rfl⟩
  have hlist : unreported.store.list? "0x1" = some ⟨"0x1", 2, [r]⟩ := rfl
  have hl : ReplicateList.Annotated ⟨"0x1", 2, [r]⟩ l' := ⟨.cons hr .nil, rfl⟩
  have hp := (Annotated.refl unreported).setList hlist hl
  obtain ⟨-, -, htells⟩ := marks_invisible hp hl hr (List.cons_ne_nil _ _)
  refine ⟨{ unreported with store := unreported.store.setList "0x1" l' }, _, l', r, r', hlist, rfl,
    rfl, rfl, rfl, rfl, rfl, ?_⟩
  rw [(htells hourly 7).1]
  decide

end Pool

end ComputePool
