import ComputePool.Proofs.AppendOnly
import ComputePool.Proofs.Recovery.Reveal
import Mathlib.Data.Finset.Card

/-!
# Who won

The chain only says how many contributions match the consensus value, not whose they are; the pool
counts its own replicates and takes the two for the same workers. It may: if the chain counts
rightly, and knows the contribution of everyone whom the pool counts (`Pool.Tallied`), then the
pool's wallets are among the winners, they are distinct, and they are as many. So they are all of
them (`Pool.Tallied.stands`).

Once the task moved on that count, every winner has a replicate that once contributed
(`Store.HasContributed`), and keeps it as long as none is removed. That is what recovery asks for
before it gives up on a worker of a task with a consensus, so no winner is told to abort.
-/

namespace ComputePool

/-! ## On chain -/

namespace Chain

/-- The wallet contributed the hash to the task, and the contribution was not rejected. -/
def hasWon (id hash wallet : String) (c : Chain) : Bool :=
  (c.contribution? id wallet).any fun k => k.isContributed && k.resultHash == hash

/-- The wallets that contributed the hash to the task. -/
def winners (id hash : String) (c : Chain) : Finset String :=
  (c.contributions.keys.map (·.2)).toFinset.filter fun wallet => c.hasWon id hash wallet

end Chain

/-! ## In the pool -/

namespace ReplicateList

variable {l : ReplicateList} {hash : String}

/-- The wallets of the replicates that last contributed the hash. -/
def standing (hash : String) (l : ReplicateList) : Finset String :=
  ((l.replicates.filter fun r =>
    r.lastRelevant? == some .contributed && r.contributionHash == some hash).map
      (·.wallet)).toFinset

/-- Who last contributed the hash is one of the replicates, by what it last did. -/
theorem mem_standing {wallet : String} : wallet ∈ l.standing hash ↔
    ∃ r ∈ l.replicates, r.wallet = wallet ∧ r.lastRelevant? = some .contributed ∧
      r.contributionHash = some hash := by
  unfold standing
  rw [List.mem_toFinset, List.mem_map]
  simp only [List.mem_filter, Bool.and_eq_true, beq_iff_eq]
  constructor
  · rintro ⟨r, ⟨hr, hlast, hhash⟩, hwallet⟩
    exact ⟨r, hr, hwallet, hlast, hhash⟩
  · rintro ⟨r, hr, hwallet, hlast, hhash⟩
    exact ⟨r, ⟨hr, hlast, hhash⟩, hwallet⟩

/-- Replicates are counted, and since no wallet has two of them, wallets as well. -/
theorem card_standing (h : l.wallets.Nodup) (hash : String) :
    (l.standing hash).card = l.winnerCount hash := by
  have hsub : ((l.replicates.filter fun r =>
      r.lastRelevant? == some .contributed && r.contributionHash == some hash).map
        (·.wallet)).Sublist l.wallets := List.filter_sublist.map _
  unfold standing winnerCount
  rw [List.toFinset_card_of_nodup (h.sublist hsub), List.length_map, List.countP_eq_length_filter]

end ReplicateList

namespace Pool

variable {p q : Pool} {id wallet : String} {c : ChainTask} {l : ReplicateList}

/-- The chain reveals the task; it counted its winners rightly, and they include everyone who by
the replicates of the pool last contributed the consensus value. -/
structure Tallied (p : Pool) (id : String) (c : ChainTask) : Prop where
  chain : p.chain.task? id = some c
  revealing : c.status = .revealing
  counted : c.winnerCounter.toNat = (p.chain.winners id c.consensusValue).card
  known : ∀ l, p.store.list? id = some l → ∀ r ∈ l.replicates,
    r.lastRelevant? = some .contributed → r.contributionHash = some c.consensusValue →
      r.wallet ∈ p.chain.winners id c.consensusValue

/-- Where the pool agrees with the chain, the wallets that it counts are the winners. -/
theorem Tallied.standing_eq (h : p.Tallied id c) (hl : p.store.list? id = some l)
    (hdistinct : l.wallets.Nodup) (hagrees : l.agreesWith c = true) :
    l.standing c.consensusValue = p.chain.winners id c.consensusValue := by
  have hsub : l.standing c.consensusValue ⊆ p.chain.winners id c.consensusValue := by
    intro wallet hwallet
    obtain ⟨r, hr, rfl, hlast, hhash⟩ := ReplicateList.mem_standing.1 hwallet
    exact h.known l hl r hr hlast hhash
  have hcard : (p.chain.winners id c.consensusValue).card ≤ (l.standing c.consensusValue).card := by
    unfold ReplicateList.agreesWith at hagrees
    rw [Bool.and_eq_true, decide_eq_true_iff] at hagrees
    rw [← h.counted, ReplicateList.card_standing hdistinct]
    exact hagrees.2
  exact Finset.eq_of_subset_of_card_le hsub hcard

/-- Where the pool agrees with the chain, every winner stands at its contribution. -/
theorem Tallied.stands (h : p.Tallied id c) (hl : p.store.list? id = some l)
    (hdistinct : l.wallets.Nodup) (hagrees : l.agreesWith c = true)
    (hwon : wallet ∈ p.chain.winners id c.consensusValue) :
    ∃ r ∈ l.replicates, r.wallet = wallet ∧ r.lastRelevant? = some .contributed := by
  rw [← h.standing_eq hl hdistinct hagrees] at hwon
  obtain ⟨r, hr, hwallet, hlast, -⟩ := ReplicateList.mem_standing.1 hwon
  exact ⟨r, hr, hwallet, hlast⟩

end Pool

/-! ## Once it moved -/

/-- The replicate of the worker once contributed. -/
def Store.HasContributed (id wallet : String) (s : Store) : Prop :=
  ∃ r, s.replicate? id wallet = some r ∧ r.reached .contributed = true

/-- Replicates only ever add to their histories. -/
theorem Store.HasContributed.step {id wallet : String} (s : Step) (p : Pool)
    (hs : ∀ w, s ≠ .removeReplicate id w) (h : p.store.HasContributed id wallet) :
    (s.apply p).store.HasContributed id wallet := Step.hasReached hs h

namespace Pool

variable {p q : Pool} {id wallet : String} {c : ChainTask} {l : ReplicateList} {t : Task}
  {block : UInt64}

/-- A task with a consensus is not lost for a worker that contributed to it. -/
theorem not_isLostFor {r : Replicate} (ht : t.status = .consensusReached)
    (hr : r.reached .contributed = true) : t.isLostFor r = false := by
  unfold Task.isLostFor
  rw [ht, hr]
  rfl

/-- Who contributed to a task with a consensus is not told to abort it. -/
theorem not_told_to_abort (hk : p.store.Keyed) (ht : p.store.task? id = some t)
    (hstatus : t.status = .consensusReached) (h : p.store.HasContributed id wallet)
    {n : Notification} (hn : n ∈ p.notices wallet block (p.tasksOf wallet))
    (hid : n.chainTaskId = id) : n.instruction ≠ .abort := by
  obtain ⟨p', u, hu, hleads, hnotice, -⟩ := mem_notices hn
  have hstored : p.store.task? u.chainTaskId = some u := task?_of_mem_tasksOf hk hu
  rw [← (notice?_chainTaskId hnotice).1, hid, ht] at hstored
  obtain rfl := Option.some.inj hstored
  -- the worker was told in a pool in which it still has contributed
  have hkept : p'.store.HasContributed id wallet :=
    hleads.keeps (P := fun q => q.store.HasContributed id wallet)
      (fun s hs q hq => hq.step s q (by rintro w rfl; exact hs)) h
  obtain ⟨r, hr, hnotice'⟩ := Option.bind_eq_some_iff.1 hnotice
  obtain ⟨i, hadvice, rfl⟩ := Option.map_eq_some_iff.1 hnotice'
  obtain ⟨r', hr', hreached⟩ := hkept
  obtain ⟨hstored, hwallet, -⟩ := resumable?_eq_some hr
  have htid : t.chainTaskId = id := hid
  rw [hwallet, htid, hr'] at hstored
  obtain rfl := Option.some.inj hstored
  rintro habort
  obtain rfl : i = .abort := habort
  exact absurd ((isLostFor_of_abort hadvice).symm.trans (not_isLostFor hstatus hreached)) (by simp)

/-- Once a task moved to a consensus, every winner has contributed. -/
theorem Tallied.hasContributed (h : p.Tallied id c) (hk : p.store.Keyed)
    (hdistinct : p.store.Distinct) (hmoved : p.attempt (updateTask id) = (.ok (some t), q))
    (hstatus : t.status = .consensusReached)
    (hwon : wallet ∈ p.chain.winners id c.consensusValue) :
    q.store.HasContributed id wallet := by
  rw [attempt_updateTask hk] at hmoved
  cases hdue : p.due? id with
  | none => exact absurd (congrArg Prod.fst (hdue ▸ hmoved)) (by simp)
  | some move =>
    obtain ⟨t₀, status⟩ := move
    rw [hdue] at hmoved
    obtain ⟨hsome, rfl⟩ := Prod.mk.inj hmoved
    obtain rfl := Option.some.inj (Except.ok.inj hsome)
    obtain rfl : status = .consensusReached := hstatus
    obtain ⟨ht₀, hnext⟩ := due?_eq_some.1 hdue
    obtain rfl : t₀.chainTaskId = id := hk.task ht₀
    have hlist : (p.advanced .consensusReached t₀).store.list? t₀.chainTaskId =
        p.store.list? t₀.chainTaskId := (list?_advanced _ ht₀ _).trans (if_pos rfl)
    have hagrees := (p.outlook t₀.chainTaskId).hasConsensus_of_next hnext
    unfold Outlook.hasConsensus Outlook.listOf outlook at hagrees
    rw [h.chain, Option.any_some] at hagrees
    unfold Store.HasContributed Store.replicate?
    rw [hlist]
    cases hl : p.store.list? t₀.chainTaskId with
    | none =>
      -- without a list there is agreement only on no winners at all
      rw [hl, Option.getD_none, ReplicateList.agreesWith, Bool.and_eq_true, decide_eq_true_iff,
        h.counted] at hagrees
      have hempty := Finset.card_eq_zero.1 (Nat.le_zero.1 hagrees.2)
      rw [hempty] at hwon
      exact absurd hwon (Finset.notMem_empty _)
    | some l =>
      rw [hl, Option.getD_some] at hagrees
      obtain ⟨r, hr, hwallet, hlast⟩ := h.stands hl (hdistinct _ l hl) hagrees hwon
      have hfind := ReplicateList.find?_of_mem (hdistinct _ l hl) hr
      rw [hwallet] at hfind
      exact ⟨r, hfind, Replicate.reached_of_lastRelevant? hlast⟩

/-! ## Winners are kept -/

/-- The pool agrees with the chain on who won, provided that the chain counts rightly and knows the
contributions that the pool counts: where there is a consensus on the list of a task, every winner
has a replicate that stands at its contribution. So once the task moved to it, no winner is told to
abort as long as the task stays there, whatever happens apart from the removal of replicates. -/
theorem winners_kept (hp : p.Reachable) (h : p.Tallied id c) :
    (∀ l, p.store.list? id = some l → (p.perform (isConsensusReached l)).1 = true →
      ∀ wallet ∈ p.chain.winners id c.consensusValue,
        ∃ r ∈ l.replicates, r.wallet = wallet ∧ r.lastRelevant? = some .contributed) ∧
    ∀ t q s, p.attempt (updateTask id) = (.ok (some t), q) → t.status = .consensusReached →
      q.Runs (fun _ e => ∀ w, e ≠ .step (.removeReplicate id w)) s →
      (s.store.task? id).map (·.status) = some .consensusReached →
      ∀ wallet ∈ p.chain.winners id c.consensusValue, ∀ block, ∃ ns s',
        s.attempt (missedNotifications block wallet) = (.ok ns, s') ∧
          ∀ n ∈ ns, n.chainTaskId = id → n.instruction ≠ .abort := by
  have hk : p.store.Keyed := hp.wellKept.keyed
  refine ⟨fun l hl hconsensus wallet hwon => ?_, ?_⟩
  · rw [perform_isConsensusReached] at hconsensus
    have hagrees : p.hasConsensus l = true := hconsensus
    unfold hasConsensus at hagrees
    rw [hk.list hl, h.chain, Option.any_some] at hagrees
    exact h.stands hl (hp.distinct _ l hl) hagrees hwon
  · intro t q s hmoved hstatus hrun hstill wallet hwon block
    have hk' : q.store.Keyed := by
      have hkept := (Event.update id).keyed hk
      rw [Event.apply, update, hmoved] at hkept
      exact hkept
    have hcontributed : s.store.HasContributed id wallet :=
      hrun.keeps_records Store.HasContributed.step hk'
        (h.hasContributed hk hp.distinct hmoved hstatus hwon)
    obtain ⟨u, hu, hstatus'⟩ := Option.map_eq_some_iff.1 hstill
    refine ⟨_, _, s.attempt_missedNotifications block wallet, fun n hn hid => ?_⟩
    exact not_told_to_abort (hrun.keyed hk') hu hstatus' hcontributed hn hid

/-- A running task on which the pool and the chain agree: its only worker won. -/
def agreed : Pool := blank.after [
  .insertTask ((Task.plain "0x1").changeStatus .epoch .running),
  .createList "0x1",
  .addReplicate (.empty "0x1") "0xa",
  .updateReplicate "0x1" "0xa"
    (.byWorker .epoch .contributed (some { Details.none with resultHash := some "0xh" })),
  .addWorker (.fresh .epoch "0xa" 1),
  .addWork "0xa" "0x1",
  .changeChain fun c =>
    (c.setTask { ChainTask.plain "0x1" with
      status := .revealing, winnerCounter := 1, consensusValue := "0xh" }).setContribution
      "0x1" "0xa" ⟨.contributed, "0xh", "", ""⟩]

/-- The worker is lost right after the task moved. -/
def abandoned : Pool :=
  (agreed.update "0x1").after [.updateReplicate "0x1" "0xa" (.byPool .epoch .workerLost none)]

/-- The only winner is lost right after the consensus, and is not told to abort when it comes back.
-/
theorem winners_kept_agreed : ∃ c t, agreed.Reachable ∧ agreed.Tallied "0x1" c ∧
    agreed.chain.winners "0x1" c.consensusValue = {"0xa"} ∧
    agreed.attempt (updateTask "0x1") = (.ok (some t), agreed.update "0x1") ∧
    t.status = .consensusReached ∧
    (agreed.update "0x1").Runs (fun _ e => ∀ w, e ≠ .step (.removeReplicate "0x1" w)) abandoned ∧
    (abandoned.store.replicate? "0x1" "0xa").map (·.status) = some .workerLost ∧
    ∃ ns s', abandoned.attempt (missedNotifications 7 "0xa") = (.ok ns, s') ∧
      ∀ n ∈ ns, n.chainTaskId = "0x1" → n.instruction ≠ .abort := by
  have hreachable : agreed.Reachable := isNew_blank.reachable.after _
  have htallied : agreed.Tallied "0x1" { ChainTask.plain "0x1" with
      status := .revealing, winnerCounter := 1, consensusValue := "0xh" } := by
    refine ⟨rfl, rfl, by decide, fun l hl r hr _ _ => ?_⟩
    obtain rfl := Option.some.inj hl
    obtain rfl := List.mem_singleton.1 hr
    decide
  have hdue : agreed.due? "0x1" =
      some ((Task.plain "0x1").changeStatus .epoch .running, .consensusReached) := rfl
  have hmoved := attempt_updateTask hreachable.wellKept.keyed "0x1"
  rw [hdue] at hmoved
  dsimp only at hmoved
  rw [← update_of_due hreachable.wellKept.keyed hdue] at hmoved
  have hrun : (agreed.update "0x1").Runs (fun _ e => ∀ w, e ≠ .step (.removeReplicate "0x1" w))
      abandoned :=
    Runs.snoc .refl (.step (.updateReplicate "0x1" "0xa" (.byPool .epoch .workerLost none)))
      (by simp)
  refine ⟨_, _, hreachable, htallied, by decide, hmoved, rfl, hrun, by decide, ?_⟩
  exact (winners_kept hreachable htallied).2 _ _ _ hmoved rfl hrun (by decide) "0xa" (by decide) 7

end Pool

end ComputePool
