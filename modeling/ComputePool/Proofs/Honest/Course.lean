import ComputePool.Proofs.Honest.Crew

/-!
# The course of an honest run

An honest run begins when the chain has activated the task (`Venture.Opening`). After that, rounds
of publishing and draining, requests for work, reports of the crew and the time that passes follow
each other in any order (`Venture.Reaches`). Whatever the order, each pool that is reached is at the
stage to which the events before it led (`Reaches.isAt`).
-/

namespace ComputePool

namespace Venture

/-- The pool where the run begins: its only task has just been received, nobody takes part in it,
the crew is ready, and the chain has activated the task. -/
structure Opening (k : Venture) (p : Pool) (t : Task) : Prop where
  reachable : p.Reachable
  task : p.store.task? k.id = some t
  received : t.status = .received
  plain : t.tee = false
  size : t.trust.toNat = k.crew.length
  only : ∀ {id : String}, (p.store.task? id).isSome → id = k.id
  unlocked : p.locks.isHeld k.id = false
  attempts : 0 < p.maxAttempts
  unclaimed : p.store.members k.id = []
  idle : ∀ {wallet : String} {w : Worker}, p.registry.worker? wallet = some w →
    k.id ∉ w.computing
  allowed : ∀ wallet ∈ k.crew, p.registry.isAllowed wallet = true
  ready : ∀ wallet ∈ k.crew, ∃ w, p.registry.worker? wallet = some w ∧ w.hasFreeSlot = true ∧
    p.registry.minGas ≤ w.gas
  active : ∃ c, p.chain.task? k.id = some c ∧ c.status = .active
  early : t.finalDeadlineReached p.now = false
  open_early : t.contributionDeadlineReached p.now = false

/-- The pools that an honest run from `start` reaches, and the stages at which it is there. -/
inductive Reaches (k : Venture) (start : Pool) : Stage → Pool → Prop where
  | opens {t : Task} (opening : k.Opening start t) : Reaches k start .opening start
  /-- The task is published, and the queue is drained. -/
  | round {s : Stage} {p q : Pool} (before : Reaches k start s p) (round : p.Round k.id q) :
      Reaches k start s.afterRound q
  /-- Time passes: the final deadline is not reached, nor the contribution deadline before the
  pool knows of the consensus. -/
  | waits {s : Stage} {p : Pool} (before : Reaches k start s p) (now : Instant)
      (early : ∀ t, p.store.task? k.id = some t → t.finalDeadlineReached now = false ∧
        (s.isOpen = true → t.contributionDeadlineReached now = false)) :
      Reaches k start s { p with now }
  /-- A worker asks for work: one of the crew, or anybody once all of the crew are there. -/
  | asks {s : Stage} {p : Pool} (before : Reaches k start s p) (lastBlock : UInt64)
      (wallet : String)
      (invited : s = .contributing ∧ wallet ∈ k.crew ∨ k.crew ⊆ p.store.members k.id) :
      Reaches k start s (p.attempt (findAuthorization lastBlock wallet)).2
  /-- A worker makes the report that is next for it. Whoever contributes reports the hash. -/
  | reports {s : Stage} {p : Pool} (before : Reaches k start s p) (wallet : String)
      (u : StatusUpdate) {r : Replicate} (found : p.store.replicate? k.id wallet = some r)
      (next : (r.status, u.status) ∈ s.reports)
      (hash : s = .contributing →
        u.resultHash? = if u.status = .contributed then some k.hash else none) :
      Reaches k start (s.afterReport u.status) (p.updateReplicate k.id wallet u).2
  /-- All of the crew contributed, and the chain reveals with their consensus. -/
  | agrees {p : Pool} (before : Reaches k start .contributing p)
      (all : ∀ wallet ∈ k.crew, ∃ r, p.store.replicate? k.id wallet = some r ∧
        r.status = .contributed)
      (f : Chain → Chain) (chain : ∃ c, (f p.chain).task? k.id = some c ∧ k.OnChain .agreed c) :
      Reaches k start .agreed (p.changeChain f)
  /-- The chain completes the task. -/
  | pays {p : Pool} (before : Reaches k start .uploaded p) (f : Chain → Chain)
      (chain : ∃ c, (f p.chain).task? k.id = some c ∧ k.OnChain .paid c) :
      Reaches k start .paid (p.changeChain f)

variable {k : Venture} {s : Stage} {start p : Pool} {t : Task}

theorem Opening.isAt (h : k.Opening p t) : k.IsAt .opening p := by
  have hlow : ∀ a : TaskStatus, .initialized ≤ a → ¬ a ≤ t.status := by
    rw [h.received]
    intro a ha hle
    exact absurd (Nat.le_trans ha hle) (by decide)
  have hequipped : k.Equipped p t := by
    refine ⟨h.reachable, h.task, h.size, h.only, h.unlocked, h.attempts, ?_, h.allowed, ?_, ?_⟩
    · rw [h.unclaimed]
      exact List.nil_subset _
    · intro wallet hwallet _
      exact h.ready wallet hwallet
    · intro wallet w hw hcomputing
      exact absurd hcomputing (h.idle hw)
  have hempty : ((p.outlook k.id).listOf t).replicates = [] := by
    have hwallets := hequipped.wallets_listOf.trans h.unclaimed
    exact List.map_eq_nil_iff.1 hwallets
  have hnone : ∀ {P : Replicate → Prop}, ∀ r ∈ ((p.outlook k.id).listOf t).replicates, P r := by
    intro P r hr
    rw [hempty] at hr
    exact absurd hr List.not_mem_nil
  obtain ⟨c, hc, hactive⟩ := h.active
  have hnot : c.status ≠ .revealing := by
    rw [hactive]
    decide
  have hworks : k.Works .opening t ((p.outlook k.id).listOf t) := by
    refine ⟨fun hle => absurd hle (hlow _ (by decide)), fun _ => hnone, hnone, hnone, ?_, ?_⟩
    · exact fun hfull => absurd hfull (by decide)
    · exact fun hs => absurd hs (by decide)
  have hchain : k.OnChain .opening c := by
    refine ⟨hactive, ?_, ?_, ?_⟩ <;> exact fun hrevealing => absurd hrevealing hnot
  refine ⟨t, hequipped, hworks, ⟨c, hc, hchain⟩, h.early, fun _ => h.open_early, ?_, h.plain,
    ?_, ?_⟩
  · rw [h.received]
    decide
  · exact fun hle => absurd hle (hlow _ (Nat.le_refl _))
  · exact fun hle => absurd hle (hlow _ (by decide))

/-- Every pool that is reached is at the stage of the run. -/
theorem Reaches.isAt (h : k.Reaches start s p) : k.IsAt s p := by
  induction h with
  | opens opening => exact opening.isAt
  | round _ round ih => exact ih.round round
  | waits _ _ early ih => exact ih.waited early
  | asks _ lastBlock _ invited ih => exact ih.asked invited lastBlock
  | reports _ _ _ found next hash ih => exact ih.reported found next hash
  | agrees _ all _ chain ih => exact ih.agreed all chain
  | pays _ _ chain ih => exact ih.paid chain

end Venture

end ComputePool
