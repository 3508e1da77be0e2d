import ComputePool.Proofs.AppendOnly
import ComputePool.Proofs.Bookkeeping
import ComputePool.Proofs.Recovery.Reveal

/-!
# What a status rests on

A task moves to a status when there is reason to, and writes down what it learnt on the way. Later
the status is taken at its word: whoever reads that the task reached a consensus expects to find
it. `Task.Grounded` says what stands behind the statuses in the history of a task, in the task
itself and in its replicate list. It is established by the move to the status, whose reason
`Outlook.Warrants` gives, and survives whatever happens afterwards, since histories only grow as
long as no replicate is removed (`Event.Additive`).

What the chain said is not on record. It is told about the pool in which the task moved: `Entry`
is the event of a run that brings a task to a status.
-/

namespace ComputePool

/-! ## Why a task moves -/

namespace Outlook

variable {o : Outlook} {t : Task} {s : TaskStatus}

/-- What has to be seen for a move to a status, apart from the clock. -/
def Warrants (o : Outlook) (t : Task) : TaskStatus → Prop
  | .consensusReached => o.hasConsensus t = true
  | .revealing => (o.listOf t).reachedCount [.revealed] ≠ 0
  | .resultUploadRequested => (o.uploader? t).isSome = true
  | .resultUploaded => (o.listOf t).uploaded?.isSome = true
  | .finalizing | .finalized | .completed => o.isCompleted = true
  | _ => True

/-- Each move has its warrant, since the branch that makes it asks for it. -/
theorem warrants_of_next (h : o.next t = some s) : o.Warrants t s := by
  unfold next at h
  split at h
  · obtain rfl := Option.some.inj h
    trivial
  · cases hs : t.status with
    | contributionTimeout => rw [hs] at h; exact absurd h (by simp)
    | completed => rw [hs] at h; exact absurd h (by simp)
    | failed => rw [hs] at h; exact absurd h (by simp)
    | _ =>
      rw [hs] at h
      dsimp only at h
      -- each branch is guarded by what it rests on
      split_ifs at h <;> (obtain rfl := Option.some.inj h) <;> trivial

/-- On the move to a consensus the task takes over what the chain has. -/
theorem moved_consensusReached (h : o.hasConsensus t = true) :
    ∃ c, o.chainTask = some c ∧
      (o.moved .consensusReached t).consensus = some c.consensusValue ∧
      (o.moved .consensusReached t).consensusBlock = c.revealingBlock := by
  obtain ⟨c, hc, -⟩ := Option.any_eq_true _ _ |>.1 h
  refine ⟨c, hc, ?_, ?_⟩
  · show (withConsensus o.chainTask t).consensus = _
    rw [hc]
    rfl
  · show (withConsensus o.chainTask t).consensusBlock = _
    rw [hc]
    rfl

end Outlook

/-! ## What a task knows -/

/-- What stands behind the statuses that the task had. -/
structure Task.Grounded (id : String) (s : Store) (t : Task) : Prop where
  initialized : .initialized ∈ t.statuses →
    (s.list? id).isSome = true ∧ (t.tee = false → t.hasEnclaveChallenge = true)
  consensus : t.consensus.isSome = true ↔ .consensusReached ∈ t.statuses
  revealing : .revealing ∈ t.statuses → ∃ wallet, s.HasReached id wallet .revealed
  requested : t.uploader.isSome = true ↔ .resultUploadRequested ∈ t.statuses
  uploader : ∀ wallet, t.uploader = some wallet → s.HasReached id wallet .resultUploadRequested
  uploaded : .resultUploaded ∈ t.statuses → ∃ wallet, s.HasReached id wallet .resultUploaded

/-- A task to which nothing happened claims nothing. -/
theorem Task.IsUntouched.grounded {t : Task} (h : t.IsUntouched) (id : String) (s : Store) :
    t.Grounded id s := by
  obtain ⟨date, hdate⟩ := h.history
  have hstatuses : t.statuses = [.received] := congrArg _ hdate
  refine ⟨?_, ?_, ?_, ?_, ?_, ?_⟩
  · simp [hstatuses]
  · simp [hstatuses, h.consensus]
  · simp [hstatuses]
  · simp [hstatuses, h.uploader]
  · simp [h.uploader]
  · simp [hstatuses]

/-! ## Replicates that got so far -/

/-- What the first store has of a task is in the second. -/
structure Store.Extended (id : String) (s s' : Store) : Prop where
  list : (s.list? id).isSome = true → (s'.list? id).isSome = true
  reached : ∀ {wallet : String} {status : ReplicateStatus}, s.HasReached id wallet status →
    s'.HasReached id wallet status

/-- What a task claims is still true of records that have more. -/
theorem Task.Grounded.extended {id : String} {s s' : Store} {t : Task} (h : t.Grounded id s)
    (hs : s.Extended id s') : t.Grounded id s' where
  initialized ht := (h.initialized ht).imp_left hs.list
  consensus := h.consensus
  revealing ht := (h.revealing ht).imp fun _ => hs.reached
  requested := h.requested
  uploader wallet ht := hs.reached (h.uploader wallet ht)
  uploaded ht := (h.uploaded ht).imp fun _ => hs.reached

/-- Whoever uploaded the result has that in the history, also when it was lost since. -/
theorem Replicate.Recorded.reached_of_hasUploaded {id : String} {r : Replicate}
    (h : r.Recorded id) (hr : r.hasUploaded = true) : r.reached .resultUploaded = true := by
  rcases Bool.or_eq_true_iff.1 hr with hstatus | hlost
  · -- the current status is the last one of the history
    obtain ⟨u, hu, hlast⟩ := Option.map_eq_some_iff.1 h.current
    refine List.any_eq_true.2 ⟨u, List.mem_of_getLast? hu, ?_⟩
    rw [hlast]
    exact hstatus
  · unfold isLostAfter at hlost
    split at hlost
    · next last before rest hreverse =>
      refine List.any_eq_true.2 ⟨before, ?_, (Bool.and_eq_true_iff.1 hlost).2⟩
      rw [← List.mem_reverse, hreverse]
      exact List.mem_cons_of_mem _ List.mem_cons_self
    · exact absurd hlost Bool.false_ne_true

namespace Pool

variable {p : Pool} {id : String} {t : Task}

/-- A replicate of the list that an update reads is stored. -/
theorem mem_listOf {r : Replicate} (hr : r ∈ ((p.outlook id).listOf t).replicates) :
    ∃ l, p.store.list? id = some l ∧ r ∈ l.replicates := by
  have hlist : ((p.outlook id).listOf t) = (p.store.list? id).getD (.empty t.chainTaskId) := rfl
  rw [hlist] at hr
  cases hl : p.store.list? id with
  | none =>
    rw [hl] at hr
    exact absurd hr List.not_mem_nil
  | some l =>
    rw [hl] at hr
    exact ⟨l, rfl, hr⟩

/-- What a replicate in the outlook of a task reached is on record. -/
theorem hasReached_of_mem (hd : p.store.Distinct) {r : Replicate}
    (hr : r ∈ ((p.outlook id).listOf t).replicates) {status : ReplicateStatus}
    (h : r.reached status = true) : p.store.HasReached id r.wallet status := by
  obtain ⟨l, hl, hmem⟩ := mem_listOf hr
  exact ⟨r, Option.bind_eq_some_iff.2 ⟨l, hl, ReplicateList.find?_of_mem (hd id l hl) hmem⟩, h⟩

/-- Who is to upload the result was asked for it, now or before. -/
theorem hasReached_uploader (hd : p.store.Distinct) {s : Store}
    (hs : p.store.Extended id s)
    (hlist : s.list? id = (p.outlook id).listAfter .resultUploadRequested t) {wallet : String}
    (h : (p.outlook id).uploader? t = some wallet) :
    s.HasReached id wallet .resultUploadRequested := by
  cases hrequested : ((p.outlook id).listOf t).requestedUploader? with
  | some r =>
    unfold Outlook.uploader? at h
    rw [hrequested] at h
    obtain rfl : r.wallet = wallet := Option.some.inj h
    have hlast : r.lastRelevant? = some .resultUploadRequested := by
      simpa using List.find?_some hrequested
    exact hs.reached (hasReached_of_mem hd (List.mem_of_find?_eq_some hrequested)
      (Replicate.reached_of_lastRelevant? hlast))
  | none =>
    have hasked : (p.outlook id).asked? t = some wallet := by
      unfold Outlook.uploader? at h
      rw [hrequested] at h
      exact h
    -- somebody who revealed is chosen, and asked for the upload
    have hcandidate := hasked
    unfold Outlook.asked? at hcandidate
    rw [hrequested] at hcandidate
    obtain ⟨r, hr, rfl⟩ := Option.map_eq_some_iff.1 hcandidate
    obtain ⟨l, hl, hmem⟩ := mem_listOf (List.mem_filter.1 (List.mem_of_getElem? hr)).1
    have hfind := ReplicateList.find?_of_mem (hd id l hl) hmem
    have hafter : s.list? id = some (l.report r.wallet (p.outlook id).request) := by
      rw [hlist]
      unfold Outlook.listAfter
      rw [hasked]
      exact congrArg (Option.map _) hl
    refine ⟨r.updateStatus (p.outlook id).request, ?_, ?_⟩
    · unfold Store.replicate?
      rw [hafter, Option.bind_some, ReplicateList.find?_report _ hfind, if_pos rfl]
    · rw [Replicate.reached_updateStatus, Bool.or_eq_true]
      exact .inr rfl

/-- What stands behind the statuses stands there after a move, with what stands behind the new
one. -/
theorem grounded_moved (hd : p.store.Distinct) (hrecorded : p.store.Recorded)
    (h : t.Grounded id p.store) {status : TaskStatus}
    (hdue : (p.outlook id).next t = some status) {s : Store} (hs : p.store.Extended id s)
    (hlist : s.list? id = (p.outlook id).listAfter status t) :
    ((p.outlook id).moved status t).saved.Grounded id s := by
  have hmem : ∀ a, a ∈ ((p.outlook id).moved status t).saved.statuses ↔
      a ∈ t.statuses ∨ a = status := fun a => by
    rw [Task.statuses_moved, List.mem_append, List.mem_singleton]
  have hbefore := h.extended hs
  have hwarrants := Outlook.warrants_of_next hdue
  have htee : ((p.outlook id).moved status t).tee = t.tee := (Outlook.moved_terms _ status t).2.1
  refine ⟨fun ha => ?_, ?_, fun ha => ?_, ?_, fun wallet hwallet => ?_, fun ha => ?_⟩
  · rcases (hmem _).1 ha with hold | rfl
    · obtain ⟨hsome, hchallenge⟩ := hbefore.initialized hold
      exact ⟨hsome, fun ht => Outlook.hasEnclaveChallenge_moved _
        (.inl (hchallenge (htee.symm.trans ht)))⟩
    · refine ⟨?_, fun ht => Outlook.hasEnclaveChallenge_moved _ (.inr ⟨htee.symm.trans ht, rfl⟩)⟩
      rw [hlist]
      exact Outlook.isSome_listAfter _ (.inr rfl)
  · rw [hmem]
    by_cases hstatus : status = .consensusReached
    · subst hstatus
      obtain ⟨c, -, hconsensus, -⟩ := Outlook.moved_consensusReached hwarrants
      refine iff_of_true ?_ (.inr rfl)
      show (Outlook.moved _ _ t).consensus.isSome = true
      rw [hconsensus]
      rfl
    · show (Outlook.moved _ _ t).consensus.isSome = true ↔ _
      rw [((p.outlook id).moved_consensus hstatus t).1, h.consensus]
      exact (or_iff_left (Ne.symm hstatus)).symm
  · rcases (hmem _).1 ha with hold | rfl
    · exact hbefore.revealing hold
    · by_contra hnobody
      refine hwarrants (ReplicateList.reachedCount_eq_zero fun r hr => ?_)
      exact Bool.eq_false_iff.2 fun hreached =>
        hnobody ⟨r.wallet, hs.reached (hasReached_of_mem hd hr hreached)⟩
  · rw [hmem]
    by_cases hstatus : status = .resultUploadRequested
    · subst hstatus
      exact iff_of_true hwarrants (.inr rfl)
    · show (Outlook.moved _ _ t).uploader.isSome = true ↔ _
      rw [(p.outlook id).moved_uploader hstatus t, h.requested]
      exact (or_iff_left (Ne.symm hstatus)).symm
  · have hwallet : ((p.outlook id).moved status t).uploader = some wallet := hwallet
    by_cases hstatus : status = .resultUploadRequested
    · subst hstatus
      exact hasReached_uploader hd hs hlist hwallet
    · rw [(p.outlook id).moved_uploader hstatus t] at hwallet
      exact hbefore.uploader wallet hwallet
  · rcases (hmem _).1 ha with hold | rfl
    · exact hbefore.uploaded hold
    · obtain ⟨r, hr⟩ := Option.isSome_iff_exists.1 hwarrants
      have hin := List.mem_of_find?_eq_some hr
      obtain ⟨l, hl, hmem⟩ := mem_listOf hin
      have hreached := (hrecorded id l hl r hmem).reached_of_hasUploaded (List.find?_some hr)
      exact ⟨r.wallet, hs.reached (hasReached_of_mem hd hin hreached)⟩

end Pool

/-! ## Runs -/

namespace Event

/-- The event stores tasks as they are received, changes them only by updates, and takes no
replicate away. -/
def Additive : Event → Prop
  | .step (.insertTask t) => t.IsUntouched
  | .step (.saveTask _) | .step (.removeReplicate ..) => False
  | _ => True

variable {e : Event} {p : Pool}

/-- Events that take nothing away are regular ones. -/
theorem Additive.regular (h : e.Additive) : e.Regular := by
  cases e with
  | step s =>
    cases s with
    | insertTask t => exact h.toIsNew
    | saveTask t => exact h
    | _ => trivial
  | _ => trivial

/-- After them the records have all that they had. -/
theorem Additive.extended (h : e.Additive) (hk : p.store.Keyed) (id : String) :
    p.store.Extended id (e.apply p).store := by
  have hkept : ∀ wallet, e ≠ .step (.removeReplicate id wallet) := by
    rintro wallet rfl
    exact h
  refine ⟨fun hsome => ?_, fun hreached => ?_⟩
  · obtain ⟨l, hl⟩ := Option.isSome_iff_exists.1 hsome
    obtain ⟨l', hl', -⟩ := keeps_records (P := fun s => s.Holds id l)
      (fun s q hs hq => Step.holds hs hq) hk hkept (Store.holds_of_list? hl)
    rw [hl']
    rfl
  · exact keeps_records (fun s q hs hq => Step.hasReached hs hq) hk hkept hreached

end Event

namespace Pool

variable {start p q : Pool} {id : String} {t : Task} {s : TaskStatus} {e : Event}

/-- The statuses of all tasks have something behind them. -/
def Grounded (p : Pool) : Prop :=
  ∀ (id : String) (t : Task), p.store.task? id = some t → t.Grounded id p.store

/-- Every event that takes nothing away keeps the tasks grounded: the one that moves by its warrant,
the others as before. -/
theorem Grounded.event (h : p.Grounded) (hp : p.Reachable) (he : e.Additive) :
    (e.apply p).Grounded := by
  intro id t ht
  have hk := hp.wellKept.keyed
  have hextended := he.extended hk id
  cases Event.onTask he.regular hk id with
  | kept same => exact (h id t (same.symm.trans ht)).extended hextended
  | inserted t' event new unknown after =>
    obtain rfl := Option.some.inj (after.symm.trans ht)
    subst event
    exact Task.IsUntouched.grounded he id _
  | moved t' s stored due after list =>
    obtain rfl := Option.some.inj (after.symm.trans ht)
    exact grounded_moved hp.distinct hp.recorded (h id t' stored) due hextended list

/-- On the way from `start` to `p` an event happens in `q` that brings the task to the status. -/
structure Entry (start p : Pool) (id : String) (s : TaskStatus) (q : Pool) (e : Event) : Prop where
  before : start.Runs (fun _ e => e.Additive) q
  event : e.Additive
  after : (e.apply q).Runs (fun _ e => e.Additive) p
  brings : ∃ t t', q.store.task? id = some t ∧ (e.apply q).store.task? id = some t' ∧
    t'.statuses = t.statuses ++ [s]

/-- A task is brought to a status by the move that is due. -/
theorem Entry.move (h : start.Entry p id s q e) (hk : start.store.Keyed) :
    ∃ t, q.store.task? id = some t ∧ (q.outlook id).next t = some s ∧
      (e.apply q).store.task? id = some ((q.outlook id).moved s t).saved := by
  obtain ⟨t, t', ht, ht', hstatuses⟩ := h.brings
  cases Event.onTask h.event.regular (h.before.keyed hk) id with
  | kept same =>
    obtain rfl := Option.some.inj (ht.symm.trans (same.symm.trans ht'))
    exact absurd hstatuses (by simp)
  | inserted t'' event new unknown after => exact absurd (unknown.symm.trans ht) (by simp)
  | moved t'' s' stored due after list =>
    obtain rfl := Option.some.inj (stored.symm.trans ht)
    obtain rfl := Option.some.inj (after.symm.trans ht')
    rw [Task.statuses_moved] at hstatuses
    obtain rfl := List.singleton_inj.1 (List.append_cancel_left hstatuses)
    exact ⟨t'', ht, due, after⟩

/-- Every status but the first was entered by an event of the run. -/
theorem exists_entry (hrun : start.Runs (fun _ e => e.Additive) p) (hk : start.store.Keyed)
    (hstart : ∀ id t, start.store.task? id = some t → t.IsUntouched)
    (ht : p.store.task? id = some t) (hs : s ∈ t.statuses) (hlater : s ≠ .received) :
    ∃ q e, start.Entry p id s q e := by
  have hnew : ∀ u : Task, u.IsNew → s ∉ u.statuses := fun u hu hmem => by
    obtain ⟨date, hdate⟩ := hu.history
    have hstatuses : u.statuses = [.received] := congrArg _ hdate
    rw [hstatuses] at hmem
    exact hlater (List.mem_singleton.1 hmem)
  induction hrun generalizing t with
  | refl => exact absurd hs (hnew t (hstart id t ht).toIsNew)
  | @tail p _ hrun hstep ih =>
    obtain ⟨e, he, rfl⟩ := hstep
    -- what was entered before was entered on the way to here
    have hbefore : ∀ u, p.store.task? id = some u → s ∈ u.statuses →
        ∃ q e', start.Entry (e.apply p) id s q e' := fun u hu hmem => by
      obtain ⟨q, e', hentry⟩ := ih hu hmem
      exact ⟨q, e', hentry.before, hentry.event, hentry.after.snoc e he, hentry.brings⟩
    cases Event.onTask he.regular (Runs.keyed hrun hk) id with
    | kept same => exact hbefore t (same.symm.trans ht) hs
    | inserted t' event new unknown after =>
      obtain rfl := Option.some.inj (after.symm.trans ht)
      exact absurd hs (hnew t' new)
    | moved t' s' stored due after list =>
      obtain rfl := Option.some.inj (after.symm.trans ht)
      have hstatuses := Task.statuses_moved (p.outlook id) s' t'
      rw [hstatuses, List.mem_append, List.mem_singleton] at hs
      rcases hs with hold | rfl
      · exact hbefore t' stored hold
      · exact ⟨p, e, hrun, he, .refl, t', _, stored, after, hstatuses⟩

/-- A task that reached a consensus keeps it. -/
theorem consensus_of_runs (hrun : q.Runs (fun _ e => e.Additive) p) (hk : q.store.Keyed)
    {t' : Task} (ht : q.store.task? id = some t) (horderly : t.Orderly)
    (hreached : .consensusReached ∈ t.statuses) (ht' : p.store.task? id = some t') :
    t'.consensus = t.consensus ∧ t'.consensusBlock = t.consensusBlock := by
  have hkept : ∃ u, p.store.task? id = some u ∧ u.Orderly ∧ .consensusReached ∈ u.statuses ∧
      u.consensus = t.consensus ∧ u.consensusBlock = t.consensusBlock := by
    refine hrun.keeps_keyed (P := fun p => ∃ u, p.store.task? id = some u ∧ u.Orderly ∧
      .consensusReached ∈ u.statuses ∧ u.consensus = t.consensus ∧
      u.consensusBlock = t.consensusBlock) ?_ hk ⟨t, ht, horderly, hreached, rfl, rfl⟩
    rintro p e hk he ⟨u, hu, horderly, hreached, hconsensus, hblock⟩
    cases Event.onTask he.regular hk id with
    | kept same => exact ⟨u, same.trans hu, horderly, hreached, hconsensus, hblock⟩
    | inserted u' event new unknown after => exact absurd (unknown.symm.trans hu) (by simp)
    | moved u' s stored due after list =>
      obtain rfl := Option.some.inj (stored.symm.trans hu)
      -- a history never comes back to a status
      have hlt : u'.status < s :=
        TaskStatus.lt_of_mem_successors (Outlook.next_mem_successors _ due)
      have hne : s ≠ .consensusReached := by
        rintro rfl
        exact Nat.lt_irrefl _ (Nat.lt_of_lt_of_le hlt (horderly.le_status hreached))
      obtain ⟨hsame, hsameBlock⟩ := (p.outlook id).moved_consensus hne u'
      refine ⟨_, after, horderly.moved due, ?_, hsame.trans hconsensus, hsameBlock.trans hblock⟩
      rw [Task.statuses_moved]
      exact List.mem_append_left _ hreached
  obtain ⟨u, hu, -, -, hconsensus, hblock⟩ := hkept
  obtain rfl := Option.some.inj (hu.symm.trans ht')
  exact ⟨hconsensus, hblock⟩

/-- What the chain said when the task moved to a consensus is what the task has of it since. -/
theorem Entry.consensus (h : start.Entry p id .consensusReached q e) (hk : start.store.Keyed)
    (hstart : ∀ id t, start.store.task? id = some t → t.IsUntouched)
    (ht : p.store.task? id = some t) :
    ∃ c, q.chain.task? id = some c ∧ t.consensus = some c.consensusValue ∧
      t.consensusBlock = c.revealingBlock := by
  obtain ⟨u, hu, hdue, hafter⟩ := h.move hk
  obtain ⟨c, hc, hconsensus, hblock⟩ :=
    Outlook.moved_consensusReached (Outlook.warrants_of_next hdue)
  have hkq := h.before.keyed hk
  have horderly : u.Orderly :=
    orderly_of_runs (h.before.mono fun _ _ he => he.regular)
      ⟨hk, fun hnew => (hstart _ _ hnew).toIsNew⟩ hu
  have hreached :
      .consensusReached ∈ ((q.outlook id).moved .consensusReached u).saved.statuses := by
    rw [Task.statuses_moved]
    exact List.mem_append_right _ (List.mem_singleton_self _)
  obtain ⟨hsame, hsameBlock⟩ :=
    consensus_of_runs h.after (e.keyed hkq) hafter (horderly.moved hdue) hreached ht
  exact ⟨c, hc, hsame.trans hconsensus, hsameBlock.trans hblock⟩

/-- On the way to completion a task moves only while the chain has it completed. -/
theorem Entry.isCompleted (h : start.Entry p id s q e) (hk : start.store.Keyed)
    (hs : s = .finalizing ∨ s = .finalized ∨ s = .completed) :
    ∃ c, q.chain.task? id = some c ∧ c.status = .completed := by
  obtain ⟨u, -, hdue, -⟩ := h.move hk
  have hwarrants := Outlook.warrants_of_next hdue
  have hcompleted : (q.outlook id).isCompleted = true := by
    rcases hs with rfl | rfl | rfl <;> exact hwarrants
  obtain ⟨c, hc, hstatus⟩ := Option.any_eq_true _ _ |>.1 hcompleted
  exact ⟨c, hc, beq_iff_eq.1 hstatus⟩

/-- The status of a task implies its data. Over a run that stores tasks as they were received,
changes them only by updates and takes no replicate away: an initialized task has a list, and a
challenge unless it runs in an enclave; exactly the tasks that reached a consensus have one;
revealing, requested and uploaded tasks have a replicate that got so far, and exactly those of
which the upload was requested name an uploader, which was asked. Every later status was entered by
an event of the run; the consensus is the one that the chain had in the pool in which it was
entered, and on the way to completion the chain had the task completed each time. -/
theorem tasks_grounded (hstart : start.Reachable)
    (huntouched : ∀ id t, start.store.task? id = some t → t.IsUntouched)
    (hrun : start.Runs (fun _ e => e.Additive) p) (ht : p.store.task? id = some t) :
    (.initialized ∈ t.statuses → (∃ l, p.store.list? id = some l) ∧
      (t.tee = false → t.enclaveChallenge ≠ "")) ∧
    (t.consensus.isSome = true ↔ .consensusReached ∈ t.statuses) ∧
    (.revealing ∈ t.statuses → ∃ wallet, p.store.HasReached id wallet .revealed) ∧
    (t.uploader.isSome = true ↔ .resultUploadRequested ∈ t.statuses) ∧
    (∀ wallet, t.uploader = some wallet → p.store.HasReached id wallet .resultUploadRequested) ∧
    (.resultUploaded ∈ t.statuses → ∃ wallet, p.store.HasReached id wallet .resultUploaded) ∧
    (∀ s ∈ t.statuses, s ≠ .received → ∃ q e, start.Entry p id s q e) ∧
    (∀ q e, start.Entry p id .consensusReached q e → ∃ c, q.chain.task? id = some c ∧
      t.consensus = some c.consensusValue ∧ t.consensusBlock = c.revealingBlock) ∧
    (∀ s q e, s = .finalizing ∨ s = .finalized ∨ s = .completed → start.Entry p id s q e →
      ∃ c, q.chain.task? id = some c ∧ c.status = .completed) := by
  have hk := hstart.wellKept.keyed
  have hgrounded : p.Reachable ∧ p.Grounded := by
    refine hrun.keeps (P := fun p => p.Reachable ∧ p.Grounded) ?_
      ⟨hstart, fun id t ht => (huntouched id t ht).grounded id _⟩
    rintro p e he ⟨hp, hgrounded⟩
    exact ⟨hp.leads (e.leads p), hgrounded.event hp he⟩
  have h := hgrounded.2 id t ht
  refine ⟨fun hs => ?_, h.consensus, h.revealing, h.requested, h.uploader, h.uploaded,
    fun s hs hlater => exists_entry hrun hk huntouched ht hs hlater,
    fun q e hentry => hentry.consensus hk huntouched ht,
    fun s q e hs hentry => hentry.isCompleted hk hs⟩
  obtain ⟨hlist, hchallenge⟩ := h.initialized hs
  refine ⟨Option.isSome_iff_exists.1 hlist, fun htee => ?_⟩
  simpa [Task.hasEnclaveChallenge] using hchallenge htee

/-- A pool with a task that was just received, on which a worker and the chain already agree. -/
def agreeing : Pool := blank.after [
  .insertTask (.plain "0x1"),
  .createList "0x1",
  .addReplicate (.empty "0x1") "0xa",
  .updateReplicate "0x1" "0xa"
    (.byWorker .epoch .contributed (some { Details.none with resultHash := some "0x2a" })),
  .changeChain (·.setTask { ChainTask.plain "0x1" with
    status := .revealing, winnerCounter := 1, consensusValue := "0x2a", revealingBlock := 7 })]

/-- What brings its task to the first step of completion. -/
def completing : List Event := [
  .update "0x1", .update "0x1", .update "0x1", .update "0x1",
  .step (.updateReplicate "0x1" "0xa" (.byWorker .epoch .revealed none)),
  .update "0x1", .update "0x1",
  .step (.updateReplicate "0x1" "0xa" (.byWorker .epoch .resultUploaded none)),
  .update "0x1",
  .step (.changeChain (·.setTask { ChainTask.plain "0x1" with status := .completed })),
  .update "0x1"]

/-- The pool has one task, and nothing happened to it yet. -/
theorem untouched_agreeing {id : String} {t : Task} (h : agreeing.store.task? id = some t) :
    t.IsUntouched := by
  have hone : agreeing.store.task? id = if "0x1" = id then some (.plain "0x1") else none := rfl
  rw [hone] at h
  split at h
  · obtain rfl := Option.some.inj h
    exact ⟨⟨rfl, rfl, .epoch, rfl⟩, rfl, rfl⟩
  · exact absurd h (by simp)

/-- From the consensus to the first step of completion: what is behind each status is there. -/
theorem tasks_grounded_finalizing : ∃ p t, agreeing.Reachable ∧
    (∀ id t, agreeing.store.task? id = some t → t.IsUntouched) ∧
    agreeing.Runs (fun _ e => e.Additive) p ∧ p.store.task? "0x1" = some t ∧
    t.statuses = [.received, .initializing, .initialized, .running, .consensusReached, .revealing,
      .resultUploadRequested, .resultUploaded, .finalizing] ∧
    (∃ l, p.store.list? "0x1" = some l) ∧ t.enclaveChallenge ≠ "" ∧
    (∃ wallet, p.store.HasReached "0x1" wallet .revealed) ∧
    (∃ wallet, t.uploader = some wallet ∧
      p.store.HasReached "0x1" wallet .resultUploadRequested) ∧
    (∃ wallet, p.store.HasReached "0x1" wallet .resultUploaded) ∧
    (∃ q e c, agreeing.Entry p "0x1" .consensusReached q e ∧ q.chain.task? "0x1" = some c ∧
      t.consensus = some c.consensusValue ∧ t.consensusBlock = c.revealingBlock) ∧
    ∃ q e c, agreeing.Entry p "0x1" .finalizing q e ∧ q.chain.task? "0x1" = some c ∧
      c.status = .completed := by
  have hreachable : agreeing.Reachable := isNew_blank.reachable.after _
  have hadditive : ∀ e ∈ completing, e.Additive := by simp [completing, Event.Additive]
  have hrun := Runs.of_events hadditive agreeing
  have hend : ∃ t, (completing.foldl Event.apply agreeing).store.task? "0x1" = some t ∧
      t.tee = false ∧ t.statuses = [.received, .initializing, .initialized, .running,
        .consensusReached, .revealing, .resultUploadRequested, .resultUploaded, .finalizing] :=
    ⟨_, rfl, rfl, rfl⟩
  obtain ⟨t, ht, htee, hstatuses⟩ := hend
  obtain ⟨hinitialized, -, hrevealing, hrequested, huploader, huploaded, hentered, hconsensus,
    hcompleted⟩ := tasks_grounded hreachable (fun _ _ => untouched_agreeing) hrun ht
  obtain ⟨hlist, hchallenge⟩ := hinitialized (by rw [hstatuses]; decide)
  obtain ⟨q, e, hentry⟩ := hentered .consensusReached (by rw [hstatuses]; decide) (by decide)
  obtain ⟨c, hc⟩ := hconsensus q e hentry
  obtain ⟨q', e', hentry'⟩ := hentered .finalizing (by rw [hstatuses]; decide) (by decide)
  obtain ⟨c', hc'⟩ := hcompleted .finalizing q' e' (.inl rfl) hentry'
  refine ⟨_, t, hreachable, fun _ _ => untouched_agreeing, hrun, ht, hstatuses, hlist,
    hchallenge htee, hrevealing (by rw [hstatuses]; decide), ?_,
    huploaded (by rw [hstatuses]; decide), ⟨q, e, c, hentry, hc⟩, q', e', c', hentry', hc'⟩
  obtain ⟨wallet, hwallet⟩ := Option.isSome_iff_exists.1 (hrequested.2 (by rw [hstatuses]; decide))
  exact ⟨wallet, hwallet, huploader wallet hwallet⟩

end Pool

end ComputePool
