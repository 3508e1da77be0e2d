import ComputePool.Proofs.Draining.Confluence
import ComputePool.Proofs.FirstFit
import ComputePool.Proofs.Honest.Standing

/-!
# The pool during an honest run

What a run needs of the pool besides the task and its list (`Venture.Equipped`): nobody holds the
lock of the task, there is no other task, only the crew takes part, and whoever of the crew does not
yet could be admitted. It is kept while requests are served (`IsAt.call`), when workers ask for work
(`IsAt.asked`) and when they report.

Together with what the stage says of the task (`Venture.IsAt`) it decides how a request for work is
answered: while workers contribute each of the crew is admitted once (`IsAt.exists_authorized`), and
nobody is once all of the crew are there (`IsAt.not_isAdmissible`).
-/

namespace ComputePool

/-- The pool is equipped for the venture. -/
structure Venture.Equipped (k : Venture) (p : Pool) (t : Task) : Prop where
  reachable : p.Reachable
  task : p.store.task? k.id = some t
  size : t.trust.toNat = k.crew.length
  only : ∀ {id : String}, (p.store.task? id).isSome → id = k.id
  unlocked : p.locks.isHeld k.id = false
  attempts : 0 < p.maxAttempts
  members : p.store.members k.id ⊆ k.crew
  allowed : ∀ wallet ∈ k.crew, p.registry.isAllowed wallet = true
  /-- Whoever of the crew does not take part yet is known, and has a free slot and gas enough. -/
  waiting : ∀ wallet ∈ k.crew, wallet ∉ p.store.members k.id →
    ∃ w, p.registry.worker? wallet = some w ∧ w.hasFreeSlot = true ∧ p.registry.minGas ≤ w.gas
  /-- A worker computes the task only while it takes part, and the task needs it. -/
  busy : ∀ {wallet : String} {w : Worker}, p.registry.worker? wallet = some w →
    k.id ∈ w.computing → wallet ∈ p.store.members k.id ∧ t.status.freesWorkers = false

/-- The venture is at a stage in the pool. -/
def Venture.IsAt (k : Venture) (s : Stage) (p : Pool) : Prop :=
  ∃ t, k.Equipped p t ∧ k.Stands s (p.outlook k.id) t

namespace Pool

/-- A request for the task is published, and the queue is drained. -/
def Round (id : String) (p q : Pool) : Prop :=
  ∃ calls applied, (p.after [.publish id]).Drains calls applied q ∧ q.queue.size = 0

variable {p q : Pool}

/-- Every round comes to an end. -/
theorem WellKept.exists_round (h : p.WellKept) (id : String) : ∃ q, p.Round id q := by
  obtain ⟨calls, applied, q, hdrains, hempty⟩ := Drains.complete (h.publish id)
  exact ⟨q, calls, applied, hdrains, hempty⟩

/-- Who is admitted has a fresh replicate at the end of the list. -/
theorem Admitted.list?_eq {wallet id : String} (h : p.Admitted wallet id q) :
    ∃ l, p.store.list? id = some l ∧ q.store.list? id = some (l.plus p.now wallet id) := by
  obtain ⟨l, hl, -, hstore⟩ := h.enrolled.list
  refine ⟨l, hl, ?_⟩
  rw [hstore, Store.list?_setList, if_pos rfl]

/-- Who is admitted takes part. -/
theorem Admitted.members_eq {wallet id : String} (h : p.Admitted wallet id q) :
    q.store.members id = p.store.members id ++ [wallet] := by
  obtain ⟨l, hl, hlist⟩ := h.list?_eq
  rw [Store.members_of_list? hlist, Store.members_of_list? hl, ReplicateList.wallets_plus]

/-- After a round no move of the task is due. -/
theorem Round.not_due {id : String} (h : p.Round id q) (hp : p.WellKept) (hnamed : id ≠ "")
    (hstored : (p.store.task? id).isSome) : q.due? id = none := by
  obtain ⟨calls, applied, hdrains, hempty⟩ := h
  refine hdrains.not_due (hp.publish id) ?_ (UpdateQueue.notMem_ids_of_empty hempty id)
  rcases absorbs_after_publish id hp with hunnamed | hqueued | hunknown
  · exact absurd hunnamed hnamed
  · exact hqueued
  · have hsame : (p.after [.publish id]).store = p.store :=
      congrArg (·.store) (p.publishRequest_snd id)
    rw [hsame] at hunknown
    rw [hunknown] at hstored
    exact absurd hstored (by simp)

end Pool

namespace Venture

variable {k : Venture} {s : Stage} {p q : Pool} {t : Task}

namespace Equipped

theorem wellKept (h : k.Equipped p t) : p.WellKept := h.reachable.wellKept

theorem named (h : k.Equipped p t) : t.chainTaskId = k.id := h.wellKept.keyed.task h.task

theorem listOf_eq (h : k.Equipped p t) :
    (p.outlook k.id).listOf t = (p.store.list? k.id).getD (.empty k.id) := by
  unfold Outlook.listOf Pool.outlook
  rw [h.named]

/-- The replicate of a wallet is the one in the list that updates read. -/
theorem replicate?_eq (h : k.Equipped p t) (wallet : String) :
    p.store.replicate? k.id wallet = ((p.outlook k.id).listOf t).find? wallet := by
  unfold Store.replicate?
  rw [h.listOf_eq]
  cases p.store.list? k.id with
  | none => rfl
  | some l => rfl

theorem wallets_listOf (h : k.Equipped p t) :
    ((p.outlook k.id).listOf t).wallets = p.store.members k.id := by
  rw [h.listOf_eq]
  unfold Store.members
  cases p.store.list? k.id with
  | none => rfl
  | some l => rfl

theorem nodup_listOf (h : k.Equipped p t) : ((p.outlook k.id).listOf t).wallets.Nodup := by
  rw [h.listOf_eq]
  cases hl : p.store.list? k.id with
  | none => exact List.nodup_nil
  | some l => exact h.reachable.distinct k.id l hl

/-- The policy and the settings stay the same in any case. -/
theorem settled (h : k.Equipped p t) {S : Step → Prop} (hleads : p.Leads S q) :
    0 < q.maxAttempts ∧ (∀ wallet ∈ k.crew, q.registry.isAllowed wallet = true) ∧
      q.registry.minGas = p.registry.minGas := by
  have hattempts := hleads.unchanged (f := (·.maxAttempts)) fun s _ p => s.maxAttempts_apply p
  have hgas := congrArg (·.minGas) hleads.policy
  refine ⟨hattempts.symm ▸ h.attempts, ?_, hgas⟩
  intro wallet hwallet
  exact (hleads.isAllowed wallet).trans (h.allowed wallet hwallet)

/-- Whatever leaves tasks, participants, workers and locks as they are keeps the pool equipped. -/
theorem of_same (h : k.Equipped p t) {S : Step → Prop} (hleads : p.Leads S q)
    (htasks : ∀ id, q.store.task? id = p.store.task? id)
    (hmembers : q.store.members k.id = p.store.members k.id)
    (hregistry : q.registry = p.registry)
    (hheld : q.locks.isHeld k.id = p.locks.isHeld k.id) : k.Equipped q t := by
  obtain ⟨hattempts, hallowed, -⟩ := h.settled hleads
  refine ⟨h.reachable.leads hleads, (htasks k.id).trans h.task, h.size, ?_, hheld.trans h.unlocked,
    hattempts, ?_, hallowed, ?_, ?_⟩
  · intro id hsome
    rw [htasks] at hsome
    exact h.only hsome
  · rw [hmembers]
    exact h.members
  · rw [hmembers, hregistry]
    exact h.waiting
  · rw [hmembers, hregistry]
    exact h.busy

/-- A move of the task keeps the pool equipped: the task frees its workers when it is over. -/
theorem moving (h : k.Equipped p t) {r : Request} {status : TaskStatus}
    (hdue : p.due? r.chainTaskId = some (t, status)) :
    k.Equipped (p.call r) ((p.outlook k.id).moved status t).saved := by
  have hkept := h.wellKept
  have hleads := p.leads_call r
  obtain ⟨hattempts, hallowed, hgas⟩ := h.settled hleads
  have hmembers : (p.call r).store.members k.id = p.store.members k.id :=
    Event.members_apply (e := .serve r.chainTaskId) trivial (p.taken r) k.id
  have htask := Pool.task?_call_moving hkept hdue
  have hlist := Pool.list?_call_moving hkept hdue k.id
  have hworker := Pool.worker?_call_moving hkept hdue
  rw [h.named] at htask hlist hworker
  rw [if_pos rfl] at hlist
  -- the list after the move says who takes part
  have hmember : ∀ {wallet : String}, wallet ∈ p.store.members k.id ↔
      ((p.outlook k.id).listAfter status t).any (·.hasWorker wallet) = true := by
    intro wallet
    rw [← hlist, ← hmembers]
    exact Store.mem_members_iff
  refine ⟨h.reachable.leads hleads, (htask k.id).trans (if_pos rfl), ?_, ?_, ?_, hattempts, ?_,
    hallowed, ?_, ?_⟩
  · rw [← h.size]
    exact congrArg UInt32.toNat ((p.outlook k.id).moved_terms status t).1
  · intro id hsome
    by_cases hid : k.id = id
    · exact hid.symm
    · rw [htask, if_neg hid] at hsome
      exact h.only hsome
  · rw [Pool.locks_call hkept r]
    exact h.unlocked
  · rw [hmembers]
    exact h.members
  · intro wallet hwallet hout
    rw [hmembers] at hout
    obtain ⟨w, hw, hready⟩ := h.waiting wallet hwallet hout
    rw [hgas, hworker, if_neg fun hfreed => hout (hmember.2 hfreed.2)]
    exact ⟨w, hw, hready⟩
  · intro wallet w hw hcomputing
    rw [hworker] at hw
    rw [hmembers]
    by_cases hfreed : status.freesWorkers = true ∧
        ((p.outlook k.id).listAfter status t).any (·.hasWorker wallet) = true
    · rw [if_pos hfreed] at hw
      obtain ⟨w₀, -, rfl⟩ := Option.map_eq_some_iff.1 hw
      exact absurd rfl (Worker.mem_computing_releaseTask.1 hcomputing).2
    · rw [if_neg hfreed] at hw
      obtain ⟨hin, -⟩ := h.busy hw hcomputing
      refine ⟨hin, ?_⟩
      show status.freesWorkers = false
      exact Bool.eq_false_iff.2 fun hfrees => hfreed ⟨hfrees, hmember.1 hin⟩

/-- Who is admitted takes part from then on. -/
theorem admitted (h : k.Equipped p t) (hopen : t.status.isOpen = true) {wallet : String}
    (hcrew : wallet ∈ k.crew) {S : Step → Prop} (hleads : p.Leads S q)
    (hafter : p.Admitted wallet k.id q) : k.Equipped q t := by
  obtain ⟨hattempts, hallowed, hgas⟩ := h.settled hleads
  have htask : ∀ id, q.store.task? id = p.store.task? id := by
    intro id
    obtain ⟨l, -, -, hstore⟩ := hafter.enrolled.list
    rw [hstore]
    rfl
  have hmembers := hafter.members_eq
  have hworker := Registry.worker?_addTask hafter.enrolled.registry
  refine ⟨h.reachable.leads hleads, (htask k.id).trans h.task, h.size, ?_,
    (hafter.relocked.held k.id).trans h.unlocked, hattempts, ?_, hallowed, ?_, ?_⟩
  · intro id hsome
    rw [htask] at hsome
    exact h.only hsome
  · rw [hmembers]
    intro other hother
    rcases List.mem_append.1 hother with hother | hother
    · exact h.members hother
    · exact List.mem_singleton.1 hother ▸ hcrew
  · intro other hother hout
    rw [hmembers, List.mem_append, List.mem_singleton, not_or] at hout
    obtain ⟨w, hw, hready⟩ := h.waiting other hother hout.1
    rw [hgas, hworker, if_neg (Ne.symm hout.2)]
    exact ⟨w, hw, hready⟩
  · intro other w hw hcomputing
    rw [hmembers, List.mem_append, List.mem_singleton]
    have hnot : t.status.freesWorkers = false := by
      simpa using TaskStatus.not_freesWorkers_of_isOpen hopen
    by_cases hsame : wallet = other
    · exact ⟨.inr hsame.symm, hnot⟩
    · rw [hworker, if_neg hsame] at hw
      exact ⟨.inl (h.busy hw hcomputing).1, hnot⟩

/-- Who is sent away is not of the crew. -/
theorem removed (h : k.Equipped p t) {wallet : String}
    (hbanned : p.registry.isAllowed wallet = false) :
    k.Equipped { p with registry := p.registry.remove wallet } t := by
  have hleads : p.Leads (fun _ => True) { p with registry := p.registry.remove wallet } :=
    .single (s := .removeWorker wallet) trivial p
  obtain ⟨hattempts, hallowed, -⟩ := h.settled hleads
  have hworker : ∀ other, ({ p with registry := p.registry.remove wallet } : Pool).registry.worker?
      other = if wallet = other then none else p.registry.worker? other := fun other =>
    Registry.worker?_remove wallet other p.registry
  refine ⟨h.reachable.leads hleads, h.task, h.size, h.only, h.unlocked, hattempts, h.members,
    hallowed, ?_, ?_⟩
  · intro other hother hout
    have hne : wallet ≠ other := by
      rintro rfl
      exact absurd (hbanned.symm.trans (h.allowed wallet hother)) (by simp)
    rw [hworker, if_neg hne]
    exact h.waiting other hother hout
  · intro other w hw hcomputing
    rw [hworker] at hw
    split at hw
    · exact absurd hw (by simp)
    · exact h.busy hw hcomputing

/-! ### Room for the crew -/

/-- Once all of the crew are there, there are as many replicates as the task trusts. -/
theorem size_le_of_full (h : k.Equipped p t) (hall : k.crew ⊆ p.store.members k.id) :
    k.crew.length ≤ ((p.outlook k.id).listOf t).replicates.length := by
  have hle := (List.subperm_of_subset k.distinct hall).length_le
  rw [← h.wallets_listOf] at hle
  exact hle.trans (Nat.le_of_eq (List.length_map _))

/-- No more take part than there are in the crew. -/
theorem length_le_size (h : k.Equipped p t) :
    ((p.outlook k.id).listOf t).replicates.length ≤ k.crew.length := by
  have hle := (List.subperm_of_subset h.nodup_listOf (h.wallets_listOf ▸ h.members)).length_le
  exact (Nat.le_of_eq (List.length_map _).symm).trans hle

/-- As long as somebody of the crew is missing, there are less. -/
theorem length_lt_size (h : k.Equipped p t) {wallet : String} (hcrew : wallet ∈ k.crew)
    (hout : wallet ∉ p.store.members k.id) :
    ((p.outlook k.id).listOf t).replicates.length < k.crew.length := by
  have hnodup : (wallet :: p.store.members k.id).Nodup :=
    List.nodup_cons.2 ⟨hout, h.wallets_listOf ▸ h.nodup_listOf⟩
  have hle := (List.subperm_of_subset hnodup (List.cons_subset.2 ⟨hcrew, h.members⟩)).length_le
  rw [List.length_cons, ← h.wallets_listOf] at hle
  exact Nat.lt_of_lt_of_le (Nat.lt_succ_of_le (Nat.le_of_eq (List.length_map _).symm)) hle

/-- The task that is stored is the one of the venture. -/
theorem eq_of_stored (h : k.Equipped p t) {u : Task}
    (hu : p.store.task? u.chainTaskId = some u) : u = t := by
  have hid : u.chainTaskId = k.id := h.only (by rw [hu]; rfl)
  rw [hid] at hu
  exact Option.some.inj (hu.symm.trans h.task)

/-- Nobody is admitted once all of the crew are there. -/
theorem not_isAdmissible (h : k.Equipped p t) (hstands : k.Stands s (p.outlook k.id) t)
    (hall : k.crew ⊆ p.store.members k.id) (w : Worker) (wallet : String) (u : Task) :
    ¬ p.IsAdmissible w wallet u := by
  intro hadmissible
  obtain rfl := h.eq_of_stored hadmissible.candidate.stored
  obtain ⟨l, hplace⟩ := hadmissible.place
  have hl : (p.outlook k.id).listOf u = l := by
    rw [h.listOf_eq, ← h.named, hplace.list]
    rfl
  have hwanted := hplace.wanted
  rw [← Pool.aliveCount_eq, ← hl, ReplicateList.aliveCount_eq_length hstands.honest,
    h.size] at hwanted
  have hle := h.size_le_of_full hall
  have hpos : 0 < k.crew.length := List.length_pos_iff.2 k.manned
  omega

/-- While workers contribute, whoever of the crew does not take part yet can be admitted. -/
theorem isAdmissible (h : k.Equipped p t)
    (hstands : k.Stands .contributing (p.outlook k.id) t) {wallet : String}
    (hcrew : wallet ∈ k.crew) (hout : wallet ∉ p.store.members k.id) (w : Worker) :
    p.IsAdmissible w wallet t := by
  have hstatus : t.status = .initialized ∨ t.status = .running := by
    simpa [Stage.statuses] using hstands.status
  have hopen : TaskStatus.initialized ≤ t.status := by
    rcases hstatus with heq | heq <;> rw [heq] <;> decide
  obtain ⟨hsome, hchallenge⟩ := hstands.ready hopen
  obtain ⟨l, hl⟩ := Option.isSome_iff_exists.1 hsome
  have hlistOf : (p.outlook k.id).listOf t = l := by
    unfold Outlook.listOf
    rw [hl]
    rfl
  refine ⟨⟨h.named ▸ h.task, hstatus, fun htee => ?_⟩, ?_, h.named ▸ h.unlocked, l,
    h.named ▸ hl, ?_, ?_, ?_⟩
  · exact absurd (hstands.plain.symm.trans htee) (by simp)
  · intro hempty
    unfold Task.hasEnclaveChallenge at hchallenge
    rw [hempty] at hchallenge
    exact absurd hchallenge (by decide)
  · intro r hr hwallet
    have hmem : r.wallet ∈ l.wallets := List.mem_map_of_mem hr
    rw [← hlistOf, h.wallets_listOf, hwallet] at hmem
    exact hout hmem
  · rw [← Pool.aliveCount_eq, ← hlistOf, ReplicateList.aliveCount_eq_length hstands.honest, h.size]
    have hlt := h.length_lt_size hcrew hout
    omega
  · have hconsensus := hstands.hasConsensus rfl
    unfold Outlook.hasConsensus at hconsensus
    rw [hlistOf] at hconsensus
    unfold Pool.hasConsensus
    rw [h.wellKept.keyed.list hl]
    exact hconsensus

end Equipped

namespace IsAt

theorem wellKept (h : k.IsAt s p) : p.WellKept := by
  obtain ⟨t, hequipped, -⟩ := h
  exact hequipped.wellKept

theorem isSome_task? (h : k.IsAt s p) : (p.store.task? k.id).isSome = true := by
  obtain ⟨t, hequipped, -⟩ := h
  rw [hequipped.task]
  rfl

/-- The replicates have the statuses of the stage. -/
theorem standing (h : k.IsAt s p) {wallet : String} {r : Replicate}
    (hr : p.store.replicate? k.id wallet = some r) : r.status ∈ s.standings := by
  obtain ⟨t, hequipped, hstands⟩ := h
  rw [hequipped.replicate?_eq] at hr
  exact hstands.standing r (List.mem_of_find?_eq_some hr)

/-- Where all of the crew are there, somebody is. -/
theorem exists_replicate? (h : k.IsAt s p) (hfull : s.isFull = true) :
    ∃ wallet r, p.store.replicate? k.id wallet = some r := by
  obtain ⟨t, hequipped, hstands⟩ := h
  have hpos : 0 < ((p.outlook k.id).listOf t).replicates.length := by
    rw [hstands.full hfull]
    exact List.length_pos_iff.2 k.manned
  obtain ⟨r, hr⟩ := List.exists_mem_of_length_pos hpos
  refine ⟨r.wallet, r, ?_⟩
  rw [hequipped.replicate?_eq]
  exact ReplicateList.find?_of_mem hequipped.nodup_listOf hr

/-- Where the result is uploaded, somebody was asked for it. -/
theorem exists_asked (h : k.IsAt .uploading p) :
    ∃ wallet r, p.store.replicate? k.id wallet = some r ∧ .resultUploadRequested ≤ r.status := by
  obtain ⟨t, hequipped, hstands⟩ := h
  have hlate : ∀ a ∈ Stage.uploading.statuses, .resultUploadRequested ≤ a := by decide
  obtain ⟨wallet, r, -, hr, -, hasked⟩ := hstands.exists_uploader (hlate _ hstands.status)
  refine ⟨wallet, r, ?_, hasked⟩
  rw [hequipped.replicate?_eq]
  exact hr

/-! ### Rounds -/

/-- A request that is served keeps the stage. -/
theorem call (h : k.IsAt s p) {r : Request} (hr : r ∈ p.queue.entries) : k.IsAt s (p.call r) := by
  obtain ⟨t, hequipped, hstands⟩ := h
  have hkept := hequipped.wellKept
  have hid : r.chainTaskId = k.id :=
    hequipped.only (hkept.queued (UpdateQueue.mem_ids_iff.2 ⟨r, hr, rfl⟩)).2
  cases hdue : p.due? r.chainTaskId with
  | none =>
    rw [(Pool.call_idle hkept hdue).1]
    have hleads : p.Leads (fun _ => True) (p.taken r) :=
      .single (s := .dispatch (.take r)) trivial p
    exact ⟨t, hequipped.of_same hleads (fun _ => rfl) rfl rfl rfl, hstands⟩
  | some move =>
    obtain ⟨t', status⟩ := move
    obtain ⟨-, htask, hnext⟩ := Pool.due_task hkept hdue
    obtain rfl := hequipped.eq_of_stored htask
    have hlist := Pool.list?_call_moving hkept hdue k.id
    obtain ⟨hnow, hchain⟩ := Pool.now_call hkept r
    rw [hequipped.named] at hnext hlist
    exact ⟨_, hequipped.moving hdue, hstands.moved hequipped.nodup_listOf hnext hnow
      (congrArg (·.task? k.id) hchain) (hlist.trans (if_pos rfl))⟩

/-- A drain leaves the venture at its stage. -/
theorem drains (h : k.IsAt s p) {calls applied : Nat} (hq : p.Drains calls applied q) :
    k.IsAt s q := by
  induction hq with
  | start => exact h
  | call _ queued ih => exact ih.call queued

/-- A request for an update leaves the venture at its stage. -/
theorem published (h : k.IsAt s p) : k.IsAt s (p.after [.publish k.id]) := by
  obtain ⟨t, hequipped, hstands⟩ := h
  have hsame := p.publishRequest_snd k.id
  have hleads : p.Leads (fun _ => True) (p.after [.publish k.id]) :=
    .single (s := .publish k.id) trivial p
  refine ⟨t, hequipped.of_same hleads ?_ ?_ ?_ ?_, ?_⟩
  · intro id
    exact congrArg (·.store.task? id) hsame
  · exact congrArg (·.store.members k.id) hsame
  · exact congrArg (·.registry) hsame
  · exact congrArg (·.isHeld k.id) (p.locks_publishRequest k.id)
  · rw [show (p.after [.publish k.id]).outlook k.id = p.outlook k.id from
      congrArg (·.outlook k.id) hsame]
    exact hstands

/-- After a round the next stage begins. -/
theorem round (h : k.IsAt s p) (hround : p.Round k.id q) : k.IsAt s.afterRound q := by
  have hdue := hround.not_due h.wellKept k.named h.isSome_task?
  obtain ⟨calls, applied, hdrains, -⟩ := hround
  obtain ⟨t, hequipped, hstands⟩ := h.published.drains hdrains
  unfold Pool.due? at hdue
  rw [hequipped.task] at hdue
  exact ⟨t, hequipped, hstands.afterRound (Option.map_eq_none_iff.1 hdue)⟩

/-! ### Requests for work -/

/-- Once all of the crew are there, whoever asks gets nothing. -/
theorem turnsDown (h : k.IsAt s p) (hall : k.crew ⊆ p.store.members k.id) (lastBlock : UInt64)
    (wallet : String) : ∃ q, p.attempt (findAuthorization lastBlock wallet) = (.ok none, q) := by
  obtain ⟨t, hequipped, hstands⟩ := h
  obtain ⟨answer, q, hq, hanswered⟩ := Pool.exists_answered hequipped.wellKept.keyed
    hequipped.reachable.prompt hequipped.attempts lastBlock wallet
  cases hanswered with
  | turnedDown | removed => exact ⟨_, hq⟩
  | admitted _ _ admissible _ =>
    exact absurd admissible (hequipped.not_isAdmissible hstands hall _ wallet _)

/-- While workers contribute, each of the crew that is synchronized is admitted. -/
theorem authorizes (h : k.IsAt .contributing p) {wallet : String} (hcrew : wallet ∈ k.crew)
    (hout : wallet ∉ p.store.members k.id) {lastBlock : UInt64} (hblock : lastBlock ≠ 0) :
    ∃ t q, p.store.task? k.id = some t ∧ p.attempt (findAuthorization lastBlock wallet) =
        (.ok (some (p.signer.authorize wallet k.id t.enclaveChallenge)), q) ∧
      q.store.members k.id = p.store.members k.id ++ [wallet] := by
  obtain ⟨t, hequipped, hstands⟩ := h
  obtain ⟨answer, q, hq, hanswered⟩ := Pool.exists_answered hequipped.wellKept.keyed
    hequipped.reachable.prompt hequipped.attempts lastBlock wallet
  obtain ⟨w, hw, hslot, hgas⟩ := hequipped.waiting wallet hcrew hout
  refine ⟨t, q, hequipped.task, ?_⟩
  cases hanswered with
  | turnedDown _ never =>
    exact absurd (hequipped.isAdmissible hstands hcrew hout w)
      (never w t hw ⟨hslot, hgas, hblock⟩)
  | removed banned => exact absurd (banned.symm.trans (hequipped.allowed wallet hcrew)) (by simp)
  | @admitted _ u _ _ _ admissible after =>
    have hu : u = t := hequipped.eq_of_stored admissible.candidate.stored
    subst u
    rw [hequipped.named] at hq after
    exact ⟨hq, after.members_eq⟩

/-- Whoever asks, only the crew is admitted, and only while workers contribute. -/
theorem asked (h : k.IsAt s p) {wallet : String}
    (hinvited : s = .contributing ∧ wallet ∈ k.crew ∨ k.crew ⊆ p.store.members k.id)
    (lastBlock : UInt64) : k.IsAt s (p.attempt (findAuthorization lastBlock wallet)).2 := by
  obtain ⟨t, hequipped, hstands⟩ := h
  have hleads := findAuthorization_admits lastBlock wallet p
  obtain ⟨answer, q, hq, hanswered⟩ := Pool.exists_answered hequipped.wellKept.keyed
    hequipped.reachable.prompt hequipped.attempts lastBlock wallet
  rw [hq] at hleads ⊢
  cases hanswered with
  | turnedDown same =>
    have hstore : q.store = p.store := congrArg (·.store) same.likewise
    have houtlook : q.outlook k.id = p.outlook k.id := by
      rw [same.likewise]
      rfl
    refine ⟨t, hequipped.of_same hleads ?_ ?_ (congrArg (·.registry) same.likewise)
      (same.relocked.held k.id), houtlook ▸ hstands⟩
    · intro id
      rw [hstore]
    · rw [hstore]
  | removed banned => exact ⟨t, hequipped.removed banned, hstands⟩
  | @admitted _ u _ _ _ admissible after =>
    have hu : u = t := hequipped.eq_of_stored admissible.candidate.stored
    subst u
    rw [hequipped.named] at after
    rcases hinvited with ⟨rfl, hcrew⟩ | hall
    · have hopen : t.status.isOpen = true := by
        rcases admissible.candidate.isOpen with heq | heq <;> rw [heq] <;> rfl
      obtain ⟨l, hl, hlist⟩ := after.list?_eq
      have hlistOf : (p.outlook k.id).listOf t = l := by
        rw [hequipped.listOf_eq, hl]
        rfl
      refine ⟨t, hequipped.admitted hopen hcrew hleads after, ?_⟩
      exact hstands.plus (congrArg (·.now) after.others)
        (congrArg (·.chain.task? k.id) after.others) (hlistOf ▸ hlist)
    · exact absurd admissible (hequipped.not_isAdmissible hstands hall _ wallet _)

/-! ### What happens outside -/

/-- A report of the stage, by the worker of a replicate. -/
theorem reported (h : k.IsAt s p) {wallet : String} {r : Replicate} {u : StatusUpdate}
    (hfound : p.store.replicate? k.id wallet = some r) (hreport : (r.status, u.status) ∈ s.reports)
    (hhash : s = .contributing →
      u.resultHash? = if u.status = .contributed then some k.hash else none) :
    k.IsAt (s.afterReport u.status) (p.updateReplicate k.id wallet u).2 := by
  obtain ⟨t, hequipped, hstands⟩ := h
  obtain ⟨l, hl, -⟩ := Option.bind_eq_some_iff.1 hfound
  have hlistOf : (p.outlook k.id).listOf t = l := by
    rw [hequipped.listOf_eq, hl]
    rfl
  rw [hequipped.replicate?_eq] at hfound
  have hlist := p.store.list?_updateReplicate k.id wallet u k.id
  rw [if_pos rfl, hl, Option.map_some, ← hlistOf] at hlist
  have hleads : p.Leads (fun _ => True) (p.updateReplicate k.id wallet u).2 :=
    .single (s := .updateReplicate k.id wallet u) trivial p
  refine ⟨t, hequipped.of_same hleads ?_ ?_ rfl rfl, ?_⟩
  · intro id
    exact congrArg (Table.find? id) (p.store.tasks_updateReplicate k.id wallet u)
  · exact Step.members_apply (s := .updateReplicate k.id wallet u) not_false p k.id
  · exact hstands.report hequipped.nodup_listOf hfound hreport hhash rfl rfl hlist

/-- Time passes, and no deadline that matters. -/
theorem waited (h : k.IsAt s p) {now : Instant}
    (hearly : ∀ t, p.store.task? k.id = some t → t.finalDeadlineReached now = false ∧
      (s.isOpen = true → t.contributionDeadlineReached now = false)) :
    k.IsAt s { p with now } := by
  obtain ⟨t, hequipped, hstands⟩ := h
  have hleads : p.Leads (fun _ => True) { p with now } := .single (s := .setClock now) trivial p
  obtain ⟨hfinal, hopen⟩ := hearly t hequipped.task
  exact ⟨t, hequipped.of_same hleads (fun _ => rfl) rfl rfl rfl, hstands.waits hfinal hopen⟩

/-- The chain has the consensus that all of the crew contributed. -/
theorem agreed (h : k.IsAt .contributing p)
    (hall : ∀ wallet ∈ k.crew, ∃ r, p.store.replicate? k.id wallet = some r ∧
      r.status = .contributed)
    {f : Chain → Chain} (hchain : ∃ c, (f p.chain).task? k.id = some c ∧ k.OnChain .agreed c) :
    k.IsAt .agreed (p.changeChain f) := by
  obtain ⟨t, hequipped, hstands⟩ := h
  have hleads : p.Leads (fun _ => True) (p.changeChain f) :=
    .single (s := .changeChain f) trivial p
  refine ⟨t, hequipped.of_same hleads (fun _ => rfl) rfl rfl rfl, ?_⟩
  refine hstands.become rfl rfl hchain (fun _ => rfl) ?_ (hstands.toWorks.become ?_ ?_ (by decide))
  · have hsub : ∀ a ∈ Stage.contributing.statuses, a ∈ Stage.agreed.statuses := by decide
    exact hsub t.status hstands.status
  · intro r hr
    have hwallet : r.wallet ∈ p.store.members k.id :=
      hequipped.wallets_listOf ▸ List.mem_map_of_mem hr
    obtain ⟨r', hr', hcontributed⟩ := hall r.wallet (hequipped.members hwallet)
    rw [hequipped.replicate?_eq, ReplicateList.find?_of_mem hequipped.nodup_listOf hr] at hr'
    obtain rfl := Option.some.inj hr'
    exact List.mem_singleton.2 hcontributed
  · intro _
    refine Nat.le_antisymm hequipped.length_le_size (hequipped.size_le_of_full ?_)
    intro wallet hwallet
    obtain ⟨r, hr, -⟩ := hall wallet hwallet
    exact Store.mem_members_of_replicate? hr

/-- The chain completes the task. -/
theorem paid (h : k.IsAt .uploaded p) {f : Chain → Chain}
    (hchain : ∃ c, (f p.chain).task? k.id = some c ∧ k.OnChain .paid c) :
    k.IsAt .paid (p.changeChain f) := by
  obtain ⟨t, hequipped, hstands⟩ := h
  have hleads : p.Leads (fun _ => True) (p.changeChain f) :=
    .single (s := .changeChain f) trivial p
  refine ⟨t, hequipped.of_same hleads (fun _ => rfl) rfl rfl rfl, ?_⟩
  refine hstands.become rfl rfl hchain ?_ ?_
    (hstands.toWorks.become hstands.standing (fun _ => hstands.full rfl) (by decide))
  · exact fun hopen => absurd hopen (by decide)
  · have hsub : ∀ a ∈ Stage.uploaded.statuses, a ∈ Stage.paid.statuses := by decide
    exact hsub t.status hstands.status

end IsAt

end Venture

end ComputePool
