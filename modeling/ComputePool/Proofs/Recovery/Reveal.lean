import ComputePool.Proofs.Participants
import ComputePool.Proofs.Recovery.Notice

/-!
# Revealing too early

Workers are told to reveal once their list agrees with a consensus on chain, also while the task
still awaits contributions; the task is published then, to move on. Agreement is counted over the
replicates that still stand at their contribution. A worker that reports its reveal before the
request is served is not counted any more. If the contribution deadline is past by then, the task
is taken for one without consensus, and times out.

`Pool.reveal_times_out_iff` says exactly when. The replicates that contributed the consensus value
are always enough (`Pool.HasContributors`): replicates only ever add to their histories. What is
missing are those of them that went on since, as they were told (`ReplicateList.movedOn`).
-/

namespace ComputePool

/-! ## Who contributed -/

/-- The replicate contributed this hash, whatever its worker did since. -/
def Replicate.hasContributed (hash : String) (r : Replicate) : Bool :=
  r.reached .contributed && r.contributionHash == some hash

/-- Who contributed the hash did so whatever is reported later. -/
theorem Replicate.hasContributed_updateStatus {hash : String} {r : Replicate}
    (h : r.hasContributed hash = true) (u : StatusUpdate) :
    (r.updateStatus u).hasContributed hash = true := by
  unfold hasContributed at h ⊢
  rw [Bool.and_eq_true, beq_iff_eq] at h
  have hhash : (r.updateStatus u).contributionHash = some hash := by
    show r.contributionHash.or u.resultHash? = _
    rw [h.2, Option.some_or]
  rw [r.reached_updateStatus, h.1, hhash, Bool.true_or, beq_self_eq_true]
  rfl

/-- Where a replicate stands it got. -/
theorem Replicate.reached_of_lastRelevant? {r : Replicate} {s : ReplicateStatus}
    (h : r.lastRelevant? = some s) : r.reached s = true := by
  obtain ⟨u, hu, hs⟩ := List.mem_map.1 (List.mem_of_find?_eq_some h)
  exact List.any_eq_true.2 ⟨u, List.mem_reverse.1 hu, beq_iff_eq.2 hs⟩

namespace ReplicateList

/-- The replicates that contributed this hash. -/
def contributors (hash : String) (l : ReplicateList) : Nat :=
  l.replicates.countP (·.hasContributed hash)

/-- Those of them that do not stand at their contribution any more. -/
def movedOn (hash : String) (l : ReplicateList) : Nat :=
  l.replicates.countP fun r => r.hasContributed hash && r.lastRelevant? != some .contributed

/-- Those that are counted for a consensus are the contributors that have not moved on. -/
theorem winnerCount_add_movedOn (hash : String) (l : ReplicateList) :
    l.winnerCount hash + l.movedOn hash = l.contributors hash := by
  unfold winnerCount movedOn contributors
  induction l.replicates with
  | nil => rfl
  | cons r rest ih =>
    rw [List.countP_cons, List.countP_cons, List.countP_cons, ← ih]
    by_cases hlast : r.lastRelevant? = some .contributed
    · -- who stands at the contribution has contributed
      have hreached := Replicate.reached_of_lastRelevant? hlast
      unfold Replicate.hasContributed
      rw [hlast, hreached, beq_self_eq_true, bne_self_eq_false, Bool.and_false, Bool.true_and]
      simp only [Bool.false_eq_true, if_false]
      omega
    · rw [beq_false_of_ne hlast, bne_iff_ne.2 hlast, Bool.false_and, Bool.and_true]
      simp only [Bool.false_eq_true, if_false]
      omega

/-- A report takes nobody out of those who contributed. -/
theorem contributors_le_report (hash wallet : String) (u : StatusUpdate) (l : ReplicateList) :
    l.contributors hash ≤ (l.report wallet u).contributors hash := by
  unfold report
  split
  · exact countP_le_modifyFirst (·.wallet == wallet) (·.hasContributed hash)
      (f := (·.updateStatus u)) (fun _ hr => Replicate.hasContributed_updateStatus hr u)
      l.replicates
  · exact Nat.le_refl _

/-- An addition takes nobody out of those who contributed. -/
theorem contributors_le_plus (hash : String) (now : Instant) (wallet id : String)
    (l : ReplicateList) : l.contributors hash ≤ (l.plus now wallet id).contributors hash := by
  unfold contributors plus
  rw [List.countP_append]
  exact Nat.le_add_right _ _

end ReplicateList

namespace Pool

variable {p q : Pool} {id hash : String} {n : Nat}

/-- So many replicates of the task contributed the hash. -/
def HasContributors (id hash : String) (n : Nat) (p : Pool) : Prop :=
  ∃ l, p.store.list? id = some l ∧ n ≤ l.contributors hash

namespace HasContributors

/-- Only the removal of a replicate takes a contributor away. -/
theorem step (h : p.HasContributors id hash n) {s : Step}
    (hs : ∀ wallet, s ≠ .removeReplicate id wallet) : (s.apply p).HasContributors id hash n := by
  obtain ⟨l, hl, hn⟩ := h
  cases s.onList p id with
  | kept same => exact ⟨l, same.trans hl, hn⟩
  | created step unknown after => exact absurd (unknown.symm.trans hl) (by simp)
  | added read wallet l' step of before absent after =>
    obtain rfl := Option.some.inj (before.symm.trans hl)
    exact ⟨_, after, Nat.le_trans hn (ReplicateList.contributors_le_plus ..)⟩
  | reported wallet u l' step before after =>
    obtain rfl := Option.some.inj (before.symm.trans hl)
    exact ⟨_, after, Nat.le_trans hn (ReplicateList.contributors_le_report ..)⟩
  | removed wallet l' step before after => exact absurd step (hs wallet)

/-- Recoveries leave at least as many contributors. -/
theorem recovers (h : p.HasContributors id hash n) (hq : p.Leads Step.Recovers q) :
    q.HasContributors id hash n := by
  refine hq.keeps (P := fun q => q.HasContributors id hash n) ?_ h
  intro s hs q hq
  refine hq.step ?_
  rintro wallet rfl
  exact hs

/-- Whatever else happens, no contributor is taken away. -/
theorem runs {r : Pool} (h : q.HasContributors id hash n) (hk : q.store.Keyed)
    (hr : q.Runs (fun _ e => ∀ wallet, e ≠ .step (.removeReplicate id wallet)) r) :
    r.HasContributors id hash n :=
  hr.keeps_records (P := fun s => ∃ l, s.list? id = some l ∧ n ≤ l.contributors hash)
    (fun _ _ hs hp => step hp hs) hk h

end HasContributors

/-! ## Told to reveal -/

variable {t : Task} {r : Replicate} {wallet : String} {block : UInt64} {c : ChainTask}

/-- While contributions are awaited, only an agreement with the chain makes a worker reveal. -/
theorem isAgreed_of_reveal (hphase : t.phase? = some .contribution)
    (h : p.advice t r block = some .reveal) : p.isAgreed t r block = true := by
  rw [advice_of_phase p block (canTell_of_advice h) (isLostFor_of_contribution hphase) hphase
    (by decide)] at h
  obtain ⟨s, -, hs⟩ := Option.bind_eq_some_iff.1 h
  revert hs
  cases p.isAgreed t r block with
  | true => exact fun _ => rfl
  | false => cases s <;> decide

/-- Whoever is told to reveal has enough contributors around: as many as the chain has winners. -/
theorem hasContributors_of_reveal (hp : p.store.Keyed) (hphase : t.phase? = some .contribution)
    (hc : p.chain.task? t.chainTaskId = some c)
    {told : Notification} (h : p.notice? t wallet block = some told)
    (hreveal : told.instruction = .reveal) :
    (p.noticed t wallet block).HasContributors t.chainTaskId c.consensusValue
      c.winnerCounter.toNat := by
  obtain ⟨r, hr, h⟩ := Option.bind_eq_some_iff.1 h
  obtain ⟨i, hadvice, rfl⟩ := Option.map_eq_some_iff.1 h
  obtain rfl : i = .reveal := hreveal
  have hagreed := isAgreed_of_reveal hphase hadvice
  unfold isAgreed at hagreed
  obtain ⟨l, hl, hconsensus⟩ := (Option.any_eq_true _ _).1 hagreed
  have hkeyed : (p.caughtUp t r block).store.Keyed := hp.leads (p.leads_caughtUp t r block)
  unfold hasConsensus at hconsensus
  rw [hkeyed.list hl, hc, Option.any_some, ReplicateList.agreesWith, Bool.and_eq_true,
    decide_eq_true_iff] at hconsensus
  have hnoticed : p.noticed t wallet block =
      (p.advised t r block).marked t.chainTaskId wallet := by
    unfold noticed
    rw [hr]
    exact if_pos (Option.isSome_iff_exists.2 ⟨_, hadvice⟩)
  have hadvised : (p.advised t r block).HasContributors t.chainTaskId c.consensusValue
      c.winnerCounter.toNat := by
    refine ⟨l, (p.list?_advised t r block _).trans hl, Nat.le_trans hconsensus.2 ?_⟩
    rw [← l.winnerCount_add_movedOn]
    exact Nat.le_add_right _ _
  rw [hnoticed]
  exact hadvised.recovers (leads_marked ..)

/-- Once a worker's whole answer is given, there still are. -/
theorem hasContributors_of_missedNotifications (hp : p.store.Keyed) {told : Notification}
    {ns : List Notification} (hc : p.chain.task? told.chainTaskId = some c)
    (ht : p.store.task? told.chainTaskId = some t) (hopen : t.status.isOpen = true)
    (hanswer : p.attempt (missedNotifications block wallet) = (.ok ns, q)) (htold : told ∈ ns)
    (hreveal : told.instruction = .reveal) :
    q.HasContributors told.chainTaskId c.consensusValue c.winnerCounter.toNat := by
  rw [attempt_missedNotifications] at hanswer
  obtain ⟨hns, rfl⟩ := Prod.mk.inj hanswer
  obtain rfl := Except.ok.inj hns
  obtain ⟨p', u, hu, hleads, hnotice, hrest⟩ := mem_notices htold
  have hid : told.chainTaskId = u.chainTaskId := (notice?_chainTaskId hnotice).1
  -- the worker was told about the task as it is stored
  have hstored : p.store.task? u.chainTaskId = some u := task?_of_mem_tasksOf hp hu
  rw [hid, hstored] at ht
  obtain rfl := Option.some.inj ht
  have hphase : u.phase? = some .contribution := by
    unfold Task.phase?
    revert hopen
    cases u.status <;> decide
  have hc' : p'.chain.task? u.chainTaskId = some c := by
    rw [(Recovered.of_leads hleads).chain, ← hid]
    exact hc
  rw [hid]
  exact (hasContributors_of_reveal (hp.leads hleads) hphase hc' hnotice hreveal).recovers hrest

/-! ## Timed out -/

/-- The chain still reveals the task, with the consensus value and the winners it had. -/
def StillReveals (id : String) (c : ChainTask) (p : Pool) : Prop :=
  ∃ c', p.chain.task? id = some c' ∧ c'.status = .revealing ∧
    c'.consensusValue = c.consensusValue ∧ c'.winnerCounter = c.winnerCounter

/-- A task for which the chain reveals times out once its contributions are due, and so many of
those that contributed the consensus value have moved on that too few are left. -/
theorem StillReveals.nextStatus?_eq_contributionTimeout (h : p.StillReveals id c)
    (hp : p.store.Keyed) {l : ReplicateList} (hl : p.store.list? id = some l) :
    p.nextStatus? id = some .contributionTimeout ↔
      (∃ t, p.store.task? id = some t ∧ t.status.isOpen = true ∧
        t.contributionDeadlineReached p.now = true ∧ t.finalDeadlineReached p.now = false) ∧
      l.contributors c.consensusValue < c.winnerCounter.toNat + l.movedOn c.consensusValue := by
  obtain ⟨c', hc, hstatus, hvalue, hwinners⟩ := h
  have hconsensus (t : Task) : (p.outlook id).hasConsensus t = false ↔
      l.contributors c.consensusValue < c.winnerCounter.toNat + l.movedOn c.consensusValue := by
    have hlist : (p.outlook id).listOf t = l := by
      unfold Outlook.listOf outlook
      rw [hl, Option.getD_some]
    unfold Outlook.hasConsensus
    rw [hlist]
    show (p.chain.task? id).any _ = false ↔ _
    rw [hc, Option.any_some, ReplicateList.agreesWith, hstatus, hvalue, hwinners,
      beq_self_eq_true, Bool.true_and, decide_eq_false_iff_not, Nat.not_le,
      ← l.winnerCount_add_movedOn]
    exact Nat.add_lt_add_iff_right.symm
  rw [nextStatus?_eq_bind hp, Option.bind_eq_some_iff]
  constructor
  · rintro ⟨t, ht, hnext⟩
    obtain ⟨hopen, hdue, hfinal, hlost⟩ := (p.outlook id).next_eq_contributionTimeout.1 hnext
    exact ⟨⟨t, ht, hopen, hdue, hfinal⟩, (hconsensus t).1 hlost⟩
  · rintro ⟨⟨t, ht, hopen, hdue, hfinal⟩, hfew⟩
    exact ⟨t, ht, (p.outlook id).next_eq_contributionTimeout.2
      ⟨hopen, hdue, hfinal, (hconsensus t).2 hfew⟩⟩

/-- When a task times out whose worker was told to reveal while contributions were awaited. From
then on, as long as the chain says the same, enough replicates contributed the consensus value.
The task times out all the same if it is still open when its contributions are due, and so many of
these replicates have moved on, to reveal as they were told, that too few still stand at their
contribution. -/
theorem reveal_times_out_iff {told : Notification} {ns : List Notification} {s : Pool}
    (hp : p.Reachable)
    (hc : p.chain.task? told.chainTaskId = some c)
    (ht : p.store.task? told.chainTaskId = some t) (hopen : t.status.isOpen = true)
    (hanswer : p.attempt (missedNotifications block wallet) = (.ok ns, q)) (htold : told ∈ ns)
    (hreveal : told.instruction = .reveal)
    (hrun : q.Runs (fun _ e => ∀ w, e ≠ .step (.removeReplicate told.chainTaskId w)) s)
    (hchain : s.StillReveals told.chainTaskId c) :
    ∃ l, s.store.list? told.chainTaskId = some l ∧
      c.winnerCounter.toNat ≤ l.contributors c.consensusValue ∧
      (s.nextStatus? told.chainTaskId = some .contributionTimeout ↔
        (∃ t, s.store.task? told.chainTaskId = some t ∧ t.status.isOpen = true ∧
          t.contributionDeadlineReached s.now = true ∧ t.finalDeadlineReached s.now = false) ∧
        l.contributors c.consensusValue <
          c.winnerCounter.toNat + l.movedOn c.consensusValue) := by
  have hkeyed : p.store.Keyed := hp.wellKept.keyed
  have hkeyed' : q.store.Keyed := by
    have hkept := (Event.recover block wallet).keyed hkeyed
    rw [Event.apply, hanswer] at hkept
    exact hkept
  obtain ⟨l, hl, henough⟩ :=
    (hasContributors_of_missedNotifications hkeyed hc ht hopen hanswer htold hreveal).runs hkeyed'
      hrun
  exact ⟨l, hl, henough, hchain.nextStatus?_eq_contributionTimeout (hrun.keyed hkeyed') hl⟩

/-! ## A worker that obeyed -/

/-- The worker is told of its only task, and that it is to reveal. -/
theorem missedNotifications_unreported :
    ∃ told, unreported.attempt (missedNotifications 7 "0xa") =
        (.ok [told], (unreported.attempt (missedNotifications 7 "0xa")).2) ∧
      told.chainTaskId = "0x1" ∧ told.instruction = .reveal := by
  have htold : (unreported.notices "0xa" 7 (unreported.tasksOf "0xa")).map
      (fun n => (n.chainTaskId, n.instruction)) = [("0x1", .reveal)] := by decide
  obtain ⟨told, hns, htold⟩ := List.map_eq_singleton_iff.1 htold
  refine ⟨told, ?_, congrArg Prod.fst htold, congrArg Prod.snd htold⟩
  rw [attempt_missedNotifications, hns]

/-- The worker was told to reveal, did so, and reported it. Then the contributions fell due, with
the request still waiting. -/
def obeyed : Pool := (unreported.attempt (missedNotifications 7 "0xa")).2.after [
  .updateReplicate "0x1" "0xa" (.byWorker .epoch .revealing none),
  .setClock ⟨7200, 0, by decide⟩]

/-- Meanwhile the chain stands still, and nobody is removed. -/
theorem runs_obeyed :
    (unreported.attempt (missedNotifications 7 "0xa")).2.Runs
      (fun q e => (e.apply q).chain = q.chain ∧ ∀ id w, e ≠ .step (.removeReplicate id w))
      obeyed := by
  refine Runs.snoc (Runs.snoc .refl (.step (.updateReplicate "0x1" "0xa" _)) ⟨rfl, ?_⟩)
    (.step (.setClock _)) ⟨rfl, ?_⟩
  · simp
  · simp

/-- The worker that obeyed is counted among the contributors, and whether the task times out is told
by who moved on. -/
theorem reveal_times_out_iff_obeyed :
    ∃ l, obeyed.store.list? "0x1" = some l ∧ 1 ≤ l.contributors "0xh" ∧
      (obeyed.nextStatus? "0x1" = some .contributionTimeout ↔
        (∃ t, obeyed.store.task? "0x1" = some t ∧ t.status.isOpen = true ∧
          t.contributionDeadlineReached obeyed.now = true ∧
          t.finalDeadlineReached obeyed.now = false) ∧
        l.contributors "0xh" < 1 + l.movedOn "0xh") := by
  obtain ⟨told, hanswer, hid, hreveal⟩ := missedNotifications_unreported
  have hc : unreported.chain.task? told.chainTaskId = some { ChainTask.plain "0x1" with
      status := .revealing, winnerCounter := 1, consensusValue := "0xh" } := by
    rw [hid]
    rfl
  have ht : unreported.store.task? told.chainTaskId = some hourly := by
    rw [hid]
    rfl
  have hchain : obeyed.StillReveals told.chainTaskId { ChainTask.plain "0x1" with
      status := .revealing, winnerCounter := 1, consensusValue := "0xh" } := by
    rw [hid]
    exact ⟨_, rfl, rfl, rfl, rfl⟩
  rw [← hid]
  exact reveal_times_out_iff (isNew_blank.reachable.after _) hc ht rfl hanswer List.mem_cons_self
    hreveal (runs_obeyed.mono fun _ _ he => he.2 _) hchain

/-- The chain never changed its mind, and the task is timed out all the same. -/
theorem reveal_timed_out :
    unreported.Reachable ∧
      (unreported.store.task? "0x1").any (·.status.isOpen) = true ∧
      (∃ told q, unreported.attempt (missedNotifications 7 "0xa") = (.ok [told], q) ∧
        told.chainTaskId = "0x1" ∧ told.instruction = .reveal ∧
        q.Runs (fun q e => (e.apply q).chain = q.chain) obeyed) ∧
      (obeyed.chain.task? "0x1").map (·.status) = some .revealing ∧
      "0x1" ∈ obeyed.queue.ids ∧
      obeyed.nextStatus? "0x1" = some .contributionTimeout := by
  obtain ⟨told, hanswer, hid, hreveal⟩ := missedNotifications_unreported
  exact ⟨isNew_blank.reachable.after _, by decide,
    ⟨told, _, hanswer, hid, hreveal, runs_obeyed.mono fun _ _ he => he.1⟩, by decide, by decide,
    by decide⟩

end Pool

end ComputePool
