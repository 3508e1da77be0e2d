import ComputePool.Proofs.Honest.Course

/-!
# An honest run completes

From every opening an honest run gets to its end: whatever a stage waits for, the crew or the chain
can do next, and the round after that leads on (`Opening.exists_closed`). And however the run gets
there, at the end the task is completed and the workers are free (`honest_run_completes`).
-/

namespace ComputePool

namespace Pool

/-- A worker got to a status, and the replicates of the others are the same. -/
structure GotTo (id wallet : String) (status : ReplicateStatus) (p q : Pool) : Prop where
  there : ∃ r, q.store.replicate? id wallet = some r ∧ r.status = status
  others : ∀ other, other ≠ wallet → q.store.replicate? id other = p.store.replicate? id other

theorem GotTo.trans {id wallet : String} {a b : ReplicateStatus} {p q q' : Pool}
    (h : p.GotTo id wallet a q) (h' : q.GotTo id wallet b q') : p.GotTo id wallet b q' := by
  refine ⟨h'.there, ?_⟩
  intro other hother
  exact (h'.others other hother).trans (h.others other hother)

/-- A report is how a replicate gets to a status. -/
theorem gotTo_updateReplicate {id wallet : String} {p : Pool} {r : Replicate}
    (hr : p.store.replicate? id wallet = some r) (u : StatusUpdate) :
    p.GotTo id wallet u.status (p.updateReplicate id wallet u).2 := by
  obtain ⟨l, hl, hfind⟩ := Option.bind_eq_some_iff.1 hr
  have hlist := p.store.list?_updateReplicate id wallet u id
  rw [if_pos rfl, hl, Option.map_some] at hlist
  have hreplicate : ∀ other, (p.updateReplicate id wallet u).2.store.replicate? id other =
      if other = wallet then some (r.updateStatus u) else l.find? other := by
    intro other
    show ((p.store.updateReplicate id wallet u).2.list? id).bind _ = _
    rw [hlist, Option.bind_some, ReplicateList.find?_report u hfind]
  refine ⟨⟨_, (hreplicate wallet).trans (if_pos rfl), rfl⟩, ?_⟩
  intro other hother
  rw [hreplicate, if_neg hother]
  unfold Store.replicate?
  rw [hl]
  rfl

end Pool

namespace Venture

variable {k : Venture} {s : Stage} {start p : Pool} {t : Task}

/-! ## The run gets on -/

/-- What the chain is to say of the task at a stage. -/
def chainTask (k : Venture) (s : Stage) (winners : UInt32) : ChainTask where
  chainTaskId := k.id
  status := s.chainStatus
  winnerCounter := winners
  consensusValue := k.hash
  revealingBlock := k.block
  contributionDeadline := .epoch
  finalDeadline := .epoch

/-- The chain can be brought to each stage. -/
theorem exists_onChain (k : Venture) (s : Stage) (c : Chain) {n : UInt32}
    (hn : n.toNat = k.crew.length) :
    ∃ c', (c.setTask (k.chainTask s n)).task? k.id = some c' ∧ k.OnChain s c' :=
  ⟨_, (Table.find?_insert ..).trans (if_pos rfl), rfl, fun _ => hn, fun _ => rfl, fun _ => rfl⟩

namespace Reaches

/-- A round leads to the next stage. -/
theorem exists_round (h : k.Reaches start s p) : ∃ q, k.Reaches start s.afterRound q := by
  obtain ⟨q, hq⟩ := h.isAt.wellKept.exists_round k.id
  exact ⟨q, h.round hq⟩

/-- A report that is next can be made. -/
theorem exists_report (h : k.Reaches start s p) {wallet : String} {r : Replicate}
    (hr : p.store.replicate? k.id wallet = some r) {a b : ReplicateStatus} (ha : r.status = a)
    (hnext : (a, b) ∈ s.reports) :
    ∃ q, k.Reaches start (s.afterReport b) q ∧ p.GotTo k.id wallet b q := by
  subst ha
  let hash := if b = ReplicateStatus.contributed then some k.hash else none
  let u : StatusUpdate := .byWorker p.now b (some { Details.none with resultHash := hash })
  exact ⟨_, h.reports wallet u hr hnext fun _ => rfl, Pool.gotTo_updateReplicate hr u⟩

/-- While workers contribute, any of the crew can join. -/
theorem exists_joined (h : k.Reaches start .contributing p) :
    ∀ ws : List String, ws ⊆ k.crew →
      ∃ q, k.Reaches start .contributing q ∧ ws ⊆ q.store.members k.id := by
  intro ws hws
  induction ws with
  | nil => exact ⟨p, h, List.nil_subset _⟩
  | cons w ws ih =>
    obtain ⟨hw, hws⟩ := List.cons_subset.1 hws
    obtain ⟨q, hq, hin⟩ := ih hws
    by_cases hmem : w ∈ q.store.members k.id
    · exact ⟨q, hq, List.cons_subset.2 ⟨hmem, hin⟩⟩
    · have hblock : (1 : UInt64) ≠ 0 := by decide
      obtain ⟨t, q', -, hattempt, hmembers⟩ := hq.isAt.authorizes hw hmem hblock
      have hq' := hq.asks 1 w (.inl ⟨rfl, hw⟩)
      rw [hattempt] at hq'
      refine ⟨q', hq', ?_⟩
      rw [hmembers]
      intro other hother
      rcases List.mem_cons.1 hother with rfl | hother
      · exact List.mem_append_right _ (List.mem_singleton.2 rfl)
      · exact List.mem_append_left _ (hin hother)

/-- A worker that joined can contribute. -/
theorem exists_contributed (h : k.Reaches start .contributing p) {wallet : String}
    (hmem : wallet ∈ p.store.members k.id) :
    ∃ q, k.Reaches start .contributing q ∧ p.GotTo k.id wallet .contributed q := by
  obtain ⟨r, hr⟩ := Store.exists_replicate?_of_mem hmem
  have hwhere : r.status = .created ∨ r.status = .contributing ∨ r.status = .contributed := by
    have hstanding := h.isAt.standing hr
    revert hstanding
    cases r.status <;> decide
  rcases hwhere with hstatus | hstatus | hstatus
  · obtain ⟨q, hq, hbegun⟩ := h.exists_report hr hstatus (b := .contributing) (by decide)
    obtain ⟨r', hr', hstatus'⟩ := hbegun.there
    obtain ⟨q', hq', hdone⟩ := hq.exists_report hr' hstatus' (b := .contributed) (by decide)
    exact ⟨q', hq', hbegun.trans hdone⟩
  · exact h.exists_report hr hstatus (by decide)
  · exact ⟨p, h, ⟨r, hr, hstatus⟩, fun _ _ => rfl⟩

/-- All of the crew can contribute. -/
theorem exists_allContributed (h : k.Reaches start .contributing p) :
    ∃ q, k.Reaches start .contributing q ∧ ∀ wallet ∈ k.crew,
      ∃ r, q.store.replicate? k.id wallet = some r ∧ r.status = .contributed := by
  obtain ⟨q₀, hq₀, hjoined⟩ := h.exists_joined k.crew (List.Subset.refl _)
  have hsome : ∀ ws : List String, ws ⊆ k.crew → ∃ q, k.Reaches start .contributing q ∧
      k.crew ⊆ q.store.members k.id ∧ ∀ wallet ∈ ws,
        ∃ r, q.store.replicate? k.id wallet = some r ∧ r.status = .contributed := by
    intro ws hws
    induction ws with
    | nil => exact ⟨q₀, hq₀, hjoined, fun _ hw => absurd hw List.not_mem_nil⟩
    | cons w ws ih =>
      obtain ⟨hw, hws⟩ := List.cons_subset.1 hws
      obtain ⟨q, hq, hin, hdone⟩ := ih hws
      obtain ⟨q', hq', hgot⟩ := hq.exists_contributed (hin hw)
      refine ⟨q', hq', ?_, ?_⟩
      · -- nobody leaves
        intro other hother
        obtain ⟨r, hr⟩ := Store.exists_replicate?_of_mem (hin hother)
        by_cases hsame : other = w
        · obtain ⟨r', hr', -⟩ := hgot.there
          exact hsame ▸ Store.mem_members_of_replicate? hr'
        · exact Store.mem_members_of_replicate? ((hgot.others other hsame).trans hr)
      · intro other hother
        by_cases hsame : other = w
        · exact hsame ▸ hgot.there
        · rw [hgot.others other hsame]
          exact hdone other ((List.mem_cons.1 hother).resolve_left hsame)
  obtain ⟨q, hq, -, hall⟩ := hsome k.crew (List.Subset.refl _)
  exact ⟨q, hq, hall⟩

/-- Somebody can reveal. -/
theorem exists_revealed (h : k.Reaches start .revealing p) :
    ∃ q, k.Reaches start .revealed q := by
  obtain ⟨wallet, r, hr⟩ := h.isAt.exists_replicate? rfl
  have hwhere : r.status = .contributed ∨ r.status = .revealing := by
    have hstanding := h.isAt.standing hr
    revert hstanding
    cases r.status <;> decide
  rcases hwhere with hstatus | hstatus
  · obtain ⟨q, hq, hbegun⟩ := h.exists_report hr hstatus (b := .revealing) (by decide)
    obtain ⟨r', hr', hstatus'⟩ := hbegun.there
    obtain ⟨q', hq', -⟩ := hq.exists_report hr' hstatus' (b := .revealed) (by decide)
    exact ⟨q', hq'⟩
  · obtain ⟨q, hq, -⟩ := h.exists_report hr hstatus (b := .revealed) (by decide)
    exact ⟨q, hq⟩

/-- Who was asked for the result can upload it. -/
theorem exists_delivered (h : k.Reaches start .uploading p) :
    ∃ q, k.Reaches start .delivered q := by
  obtain ⟨wallet, r, hr, hasked⟩ := h.isAt.exists_asked
  have hwhere : r.status = .resultUploadRequested ∨ r.status = .resultUploading := by
    have hstanding := h.isAt.standing hr
    revert hasked hstanding
    cases r.status <;> decide
  rcases hwhere with hstatus | hstatus
  · obtain ⟨q, hq, hbegun⟩ := h.exists_report hr hstatus (b := .resultUploading) (by decide)
    obtain ⟨r', hr', hstatus'⟩ := hbegun.there
    obtain ⟨q', hq', -⟩ := hq.exists_report hr' hstatus' (b := .resultUploaded) (by decide)
    exact ⟨q', hq'⟩
  · obtain ⟨q, hq, -⟩ := h.exists_report hr hstatus (b := .resultUploaded) (by decide)
    exact ⟨q, hq⟩

end Reaches

/-- From every opening a run gets to its end. -/
theorem Opening.exists_closed (h : k.Opening start t) : ∃ q, k.Reaches start .closed q := by
  have hopens : k.Reaches start .opening start := .opens h
  obtain ⟨p₁, hinitialized⟩ := hopens.exists_round
  obtain ⟨p₂, hcontributed, hall⟩ := Reaches.exists_allContributed hinitialized
  have hagreed := hcontributed.agrees hall _ (k.exists_onChain .agreed p₂.chain h.size)
  obtain ⟨p₃, hrevealing⟩ := hagreed.exists_round
  obtain ⟨p₄, hrevealed⟩ := Reaches.exists_revealed hrevealing
  obtain ⟨p₅, huploading⟩ := hrevealed.exists_round
  obtain ⟨p₆, hdelivered⟩ := Reaches.exists_delivered huploading
  obtain ⟨p₇, huploaded⟩ := hdelivered.exists_round
  have hpaid := Reaches.pays huploaded _ (k.exists_onChain .paid p₇.chain h.size)
  exact hpaid.exists_round

/-! ## The end -/

/-- The task is completed with the consensus of the venture, its result was uploaded by one of the
crew that had revealed, and nobody computes it any more. -/
structure Completed (k : Venture) (p : Pool) (t : Task) : Prop where
  task : p.store.task? k.id = some t
  status : t.status = .completed
  consensus : t.consensus = some k.hash
  block : t.consensusBlock = k.block
  uploader : ∃ wallet ∈ k.crew, ∃ r, t.uploader = some wallet ∧
    p.store.replicate? k.id wallet = some r ∧ r.reached .revealed = true ∧
    r.status = .resultUploaded
  free : ∀ {wallet : String} {w : Worker}, p.registry.worker? wallet = some w →
    k.id ∉ w.computing

/-- At the end the task is completed. -/
theorem IsAt.completed (h : k.IsAt .closed p) : ∃ t, k.Completed p t := by
  obtain ⟨t, hequipped, hstands⟩ := h
  have hstatus : t.status = .completed := List.mem_singleton.1 hstands.status
  have hlate : ∀ a : TaskStatus, a ≤ .completed → a ≤ t.status := by
    rw [hstatus]
    exact fun _ ha => ha
  obtain ⟨hconsensus, hblock⟩ := hstands.agreed (hlate _ (by decide))
  obtain ⟨wallet, r, huploader, hfind, hr, hasked⟩ := hstands.exists_uploader (hlate _ (by decide))
  have hmem : wallet ∈ p.store.members k.id := by
    rw [← hequipped.wallets_listOf]
    exact ReplicateList.hasWorker_iff.1 (Option.isSome_iff_exists.2 ⟨r, hfind⟩)
  have hreplicate : p.store.replicate? k.id wallet = some r := by
    rw [hequipped.replicate?_eq, hfind]
  have huploaded : r.status = .resultUploaded := by
    have hstanding := hstands.standing r hr
    revert hasked hstanding
    cases r.status <;> decide
  have hrevealed := (hstands.honest r hr).revealed (by rw [huploaded]; decide)
  refine ⟨t, hequipped.task, hstatus, hconsensus, hblock, ⟨wallet, hequipped.members hmem, r,
    huploader, hreplicate, hrevealed, huploaded⟩, ?_⟩
  intro wallet w hw hcomputing
  obtain ⟨-, hneeded⟩ := hequipped.busy hw hcomputing
  rw [hstatus] at hneeded
  exact absurd hneeded (by decide)

/-- An honest run completes. From every opening some run gets to its end. In every pool that a run
reaches the next round comes to an end, and the task has a status of the stage. While workers
contribute, each of the crew that is not there yet is admitted when it asks, and once all are there
nobody is. At the end the task is completed. -/
theorem honest_run_completes (hopening : k.Opening start t) :
    (∃ q, k.Reaches start .closed q) ∧
    ∀ s p, k.Reaches start s p →
      (∃ q, p.Round k.id q) ∧
      (∃ t, p.store.task? k.id = some t ∧ t.status ∈ s.statuses) ∧
      (s = .contributing → ∀ wallet ∈ k.crew, wallet ∉ p.store.members k.id →
        ∀ lastBlock, lastBlock ≠ 0 → ∃ t q, p.store.task? k.id = some t ∧
          p.attempt (findAuthorization lastBlock wallet) =
            (.ok (some (p.signer.authorize wallet k.id t.enclaveChallenge)), q) ∧
          q.store.members k.id = p.store.members k.id ++ [wallet]) ∧
      (k.crew ⊆ p.store.members k.id → ∀ lastBlock wallet, ∃ q,
        p.attempt (findAuthorization lastBlock wallet) = (.ok none, q)) ∧
      (s = .closed → ∃ t, k.Completed p t) := by
  refine ⟨hopening.exists_closed, ?_⟩
  intro s p h
  have hat := h.isAt
  refine ⟨hat.wellKept.exists_round k.id, ?_, ?_, fun hall => hat.turnsDown hall, ?_⟩
  · obtain ⟨t, hequipped, hstands⟩ := hat
    exact ⟨t, hequipped.task, hstands.status⟩
  · rintro rfl wallet hcrew hout lastBlock hblock
    exact hat.authorizes hcrew hout hblock
  · rintro rfl
    exact hat.completed

/-- A venture of two workers. -/
def duo : Venture where
  id := "0x1"
  crew := ["0xa", "0xb"]
  hash := "0xh"
  block := 20
  named := by decide
  distinct := by decide
  manned := by decide

/-- The chain has activated the task of the two. -/
def duoOpened : Pool := Pool.blank.after [
  .insertTask { Task.plain "0x1" with trust := 2 },
  .addWorker (.fresh .epoch "0xa" 1),
  .addWorker (.fresh .epoch "0xb" 1),
  .changeChain (·.setTask (.plain "0x1"))]

/-- The venture of the two is completed. -/
theorem honest_run_completes_duo :
    duo.Opening duoOpened { Task.plain "0x1" with trust := 2 } ∧
      ∃ p, duo.Reaches duoOpened .closed p ∧ ∃ t, duo.Completed p t := by
  have hreachable : duoOpened.Reachable := Pool.isNew_blank.reachable.after _
  have hworker : ∀ {wallet : String} {w : Worker}, duoOpened.registry.worker? wallet = some w →
      w ∈ [.fresh .epoch "0xa" 1, .fresh .epoch "0xb" 1] := Table.mem_values_of_find?
  have htask : ∀ {id : String}, (duoOpened.store.task? id).isSome → id = "0x1" := by
    intro id hsome
    obtain ⟨t, ht⟩ := Option.isSome_iff_exists.1 hsome
    have ht' := List.mem_singleton.1 (Table.mem_values_of_find? ht)
    rw [← hreachable.wellKept.keyed.task ht, ht']
    rfl
  have hopening : duo.Opening duoOpened { Task.plain "0x1" with trust := 2 } := by
    refine ⟨hreachable, rfl, rfl, rfl, rfl, htask, by decide, by decide, rfl, ?_, by decide, ?_,
      ⟨_, rfl, rfl⟩, by decide, by decide⟩
    · intro wallet w hw
      have hidle : ∀ w ∈ [Worker.fresh .epoch "0xa" 1, .fresh .epoch "0xb" 1],
          "0x1" ∉ w.computing := by decide
      exact hidle w (hworker hw)
    · intro wallet hwallet
      rcases List.mem_pair.1 hwallet with rfl | rfl
      · exact ⟨_, rfl, by decide, by decide⟩
      · exact ⟨_, rfl, by decide, by decide⟩
  obtain ⟨⟨p, hp⟩, hreached⟩ := honest_run_completes hopening
  obtain ⟨-, -, -, -, hcompleted⟩ := hreached _ p hp
  exact ⟨hopening, p, hp, hcompleted rfl⟩

end Venture

end ComputePool
