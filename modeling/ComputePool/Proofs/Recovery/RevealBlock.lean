import ComputePool.Proofs.Grounds

/-!
# The block of a reveal

Along with the instruction to reveal goes the block at which the chain began to reveal. Recovery
takes it from the record of the task, which has it from the move to the consensus on
(`Task.KnowsBlock`); a task that was just made knows of none (`Task.isBlank_of_fresh`). The
instruction itself may come earlier: while contributions are still awaited, recovery looks for the
consensus on chain, and the record then knows of no block.

`Pool.reveal_block_iff` says that this is the one way to go wrong. In the reveal phase the block is
that of the chain, and before it is zero.
-/

namespace ComputePool

/-- Whenever the chain reveals a task, it does so since the block that belongs to the task. -/
def Chain.RevealsSince (b : String → UInt64) (c : Chain) : Prop :=
  ∀ id k, c.task? id = some k → k.status = .revealing → k.revealingBlock = b id

namespace Task

/-- The task is as it was received, and knows of no block. -/
structure IsBlank (t : Task) : Prop extends t.IsNew where
  consensusBlock : t.consensusBlock = 0

/-- The task knows of no block while contributions are awaited, and of the block at which the chain
began to reveal while reveals are awaited. -/
structure KnowsBlock (b : UInt64) (t : Task) : Prop where
  before : t.status ≤ .running → t.consensusBlock = 0
  since : t.phase? = some .reveal → t.consensusBlock = b

/-- A task that was just made has no consensus block yet. -/
theorem isBlank_of_fresh {id : Uuid} {now : Instant} {dealId : String} {index : UInt32}
    {chainTaskId : String} {trust : UInt32} {maxExecutionTime : Span} {t : Task}
    (h : fresh id now dealId index chainTaskId trust maxExecutionTime = .ok t) : t.IsBlank := by
  refine ⟨(isUntouched_of_fresh h).toIsNew, ?_⟩
  obtain ⟨-, hfresh⟩ | ⟨contribution, final, -, hfresh⟩ := fresh_cases
  · exact absurd (h.symm.trans hfresh) (by simp)
  · obtain rfl := Except.ok.inj (h.symm.trans hfresh)
    rfl

theorem IsBlank.knowsBlock {t : Task} (h : t.IsBlank) (b : UInt64) : t.KnowsBlock b := by
  refine ⟨fun _ => h.consensusBlock, fun hphase => ?_⟩
  unfold phase? at hphase
  rw [h.status] at hphase
  exact absurd hphase (by decide)

/-- The move to the consensus writes the block down, and no other move touches it. -/
theorem KnowsBlock.moved {b : UInt64} {t : Task} (h : t.KnowsBlock b) {o : Outlook} {s : TaskStatus}
    (hs : o.next t = some s)
    (hchain : ∀ c, o.chainTask = some c → c.status = .revealing → c.revealingBlock = b) :
    (o.moved s t).saved.KnowsBlock b := by
  have hmem := o.next_mem_successors hs
  by_cases hreached : s = .consensusReached
  · subst hreached
    have hconsensus := o.hasConsensus_of_next hs
    obtain ⟨c, hc, -, hblock⟩ := Outlook.moved_consensusReached hconsensus
    have hrevealing : c.status = .revealing := by
      unfold Outlook.hasConsensus at hconsensus
      rw [hc, Option.any_some, ReplicateList.agreesWith, Bool.and_eq_true, beq_iff_eq] at hconsensus
      exact hconsensus.1
    have hlate : ¬ TaskStatus.consensusReached ≤ .running := by decide
    exact ⟨fun hle => absurd hle hlate, fun _ => hblock.trans (hchain c hc hrevealing)⟩
  · have hsame : (o.moved s t).consensusBlock = t.consensusBlock :=
      (o.moved_consensus hreached t).2
    refine ⟨fun hle => hsame.trans (h.before ?_), fun hphase => hsame.trans (h.since ?_)⟩
    · exact Nat.le_of_lt (Nat.lt_of_lt_of_le (TaskStatus.lt_of_mem_successors hmem) hle)
    · -- apart from the consensus, the reveal phase is entered from within
      obtain rfl : s = .revealing := by
        have hphase : s.phase? = some .reveal := hphase
        revert hphase hreached
        cases s <;> decide
      unfold phase?
      revert hmem
      cases t.status <;> decide

end Task

/-- The event stores tasks as they are received, and changes them only by updates. -/
def Event.Plain : Event → Prop
  | .step (.insertTask t) => t.IsBlank
  | .step (.saveTask _) => False
  | _ => True

theorem Event.Plain.regular {e : Event} (h : e.Plain) : e.Regular := by
  cases e with
  | step s =>
    cases s with
    | insertTask t => exact h.toIsNew
    | saveTask t => exact h
    | _ => trivial
  | _ => trivial

namespace Pool

variable {start p : Pool} {b : String → UInt64} {t : Task} {r : Replicate} {wallet : String}
  {block : UInt64}

/-- Along a run in which the block at which the chain reveals a task stays the same, all tasks know
of it when they should. -/
theorem knowsBlock_of_runs (hk : start.store.Keyed)
    (hblank : ∀ id t, start.store.task? id = some t → t.IsBlank)
    (hchain : start.chain.RevealsSince b)
    (hrun : start.Runs (fun q e => e.Plain ∧ (e.apply q).chain.RevealsSince b) p) :
    p.chain.RevealsSince b ∧ ∀ id t, p.store.task? id = some t → t.KnowsBlock (b id) := by
  refine hrun.keeps_keyed
    (P := fun p => p.chain.RevealsSince b ∧ ∀ id t, p.store.task? id = some t → t.KnowsBlock (b id))
    ?_ hk ⟨hchain, fun id t ht => (hblank id t ht).knowsBlock _⟩
  rintro p e hk ⟨he, hchain'⟩ ⟨hchain, hknows⟩
  refine ⟨hchain', fun id t ht => ?_⟩
  cases Event.onTask he.regular hk id with
  | kept same => exact hknows id t (same.symm.trans ht)
  | inserted t' event new unknown after =>
    obtain rfl := Option.some.inj (after.symm.trans ht)
    subst event
    exact Task.IsBlank.knowsBlock he (b id)
  | moved t' s stored due after list =>
    obtain rfl := Option.some.inj (after.symm.trans ht)
    exact (hknows id t' stored).moved due fun c hc => hchain id c hc

/-- Workers are told to reveal while reveals are awaited, or contributions. -/
theorem phase_of_reveal (h : p.advice t r block = some .reveal) :
    t.phase? = some .contribution ∨ t.phase? = some .reveal := by
  have htable : ∀ agreed (phase : TaskPhase) s, phase.instruction? agreed s = some .reveal →
      phase = .contribution ∨ phase = .reveal := by
    intro agreed phase s
    revert agreed
    cases phase <;> cases s <;> decide
  unfold advice at h
  split at h
  · exact absurd h (by simp)
  split at h
  · exact absurd h (by simp)
  split at h
  · unfold completion? at h
    split at h
    · obtain ⟨stored, -, hstored⟩ := Option.map_eq_some_iff.1 h
      split at hstored
      · exact absurd hstored (by simp)
      · exact absurd hstored (by simp)
    · exact absurd h (by simp)
  · obtain ⟨phase, hphase, h⟩ := Option.bind_eq_some_iff.1 h
    obtain ⟨s, -, h⟩ := Option.bind_eq_some_iff.1 h
    rw [hphase, Option.some_inj, Option.some_inj]
    exact htable _ phase s h

/-- The block that goes along with an instruction to reveal is the one on record. -/
theorem block_of_notice? {told : Notification} (h : p.notice? t wallet block = some told)
    (hreveal : told.instruction = .reveal) :
    (t.phase? = some .contribution ∨ t.phase? = some .reveal) ∧
      told.extra.block = some t.consensusBlock := by
  obtain ⟨r, -, h⟩ := Option.bind_eq_some_iff.1 h
  obtain ⟨i, hadvice, rfl⟩ := Option.map_eq_some_iff.1 h
  obtain rfl : i = .reveal := hreveal
  exact ⟨phase_of_reveal hadvice, rfl⟩

/-- When the block is right that goes along with an instruction to reveal. Over a run that stores
tasks as they are received and changes them only by updates, and in which the chain sticks to the
block at which it began to reveal a task, a worker that is told to reveal a task that the chain
reveals is told that block if the task is in its reveal phase. While contributions are awaited it is
told zero, so the block is right then only if the chain began to reveal at block zero. -/
theorem reveal_block_iff (hk : start.store.Keyed)
    (hblank : ∀ id t, start.store.task? id = some t → t.IsBlank)
    (hchain : start.chain.RevealsSince b)
    (hrun : start.Runs (fun q e => e.Plain ∧ (e.apply q).chain.RevealsSince b) p)
    (block : UInt64) (wallet : String) :
    ∃ ns q, p.attempt (missedNotifications block wallet) = (.ok ns, q) ∧
      ∀ told ∈ ns, told.instruction = .reveal → ∀ c, p.chain.task? told.chainTaskId = some c →
        c.status = .revealing → ∃ t, p.store.task? told.chainTaskId = some t ∧
          (t.phase? = some .reveal ∨
            t.phase? = some .contribution ∧ told.extra.block = some 0) ∧
          (told.extra.block = some c.revealingBlock ↔
            t.phase? = some .reveal ∨ c.revealingBlock = 0) := by
  obtain ⟨hreveals, hknows⟩ := knowsBlock_of_runs hk hblank hchain hrun
  refine ⟨_, _, p.attempt_missedNotifications block wallet, ?_⟩
  intro told htold hreveal c hc hstatus
  obtain ⟨p', t, ht, -, hnotice, -⟩ := mem_notices htold
  have hid : told.chainTaskId = t.chainTaskId := (notice?_chainTaskId hnotice).1
  have hstored : p.store.task? told.chainTaskId = some t :=
    hid ▸ task?_of_mem_tasksOf (hrun.keyed hk) ht
  have hblock := hreveals _ c hc hstatus
  have hknown := hknows _ t hstored
  obtain ⟨hphase, hextra⟩ := block_of_notice? hnotice hreveal
  refine ⟨t, hstored, ?_⟩
  rcases hphase with hphase | hphase
  · have hopen : t.status ≤ .running := by
      unfold Task.phase? at hphase
      revert hphase
      cases t.status <;> decide
    rw [hextra, hknown.before hopen]
    refine ⟨.inr ⟨hphase, rfl⟩, ?_⟩
    rw [Option.some_inj, hphase]
    exact ⟨fun hzero => .inr hzero.symm, fun h => (h.resolve_left (by decide)).symm⟩
  · rw [hextra, hknown.since hphase, hblock]
    exact ⟨.inl hphase, iff_of_true rfl (.inl hphase)⟩

/-! ## Told too early, and in time -/

/-- It is enough to look at the tasks that the chain has. -/
theorem revealsSince_of_values {n : UInt64} {c : Chain}
    (h : ∀ k ∈ c.tasks.values, k.status = .revealing → k.revealingBlock = n) :
    c.RevealsSince fun _ => n :=
  fun _ k hk => h k (Table.mem_values_of_find? hk)

/-- A worker is admitted into a new task and contributes, and the chain begins to reveal. -/
def announced : Pool := [
  .step (.insertTask (.plain "0x1")),
  .step (.changeChain (·.setTask (.plain "0x1"))),
  .update "0x1",
  .update "0x1",
  .step (.addWorker (.fresh .epoch "0xa" 1)),
  .find 1 "0xa",
  .step (.updateReplicate "0x1" "0xa"
    (.byWorker .epoch .contributed (some { Details.none with resultHash := some "0x2a" }))),
  .step (.changeChain (·.setTask { ChainTask.plain "0x1" with
    status := .revealing, winnerCounter := 1, consensusValue := "0x2a", revealingBlock := 7 }))
  ].foldl Event.apply blank

/-- Revealing begins at block seven and at no other. -/
theorem runs_announced :
    blank.Runs (fun q e => e.Plain ∧ (e.apply q).chain.RevealsSince fun _ => 7) announced := by
  have hplain : Event.Plain (.step (.insertTask (.plain "0x1"))) :=
    ⟨⟨rfl, rfl, .epoch, rfl⟩, rfl⟩
  refine .of_cons ⟨hplain, revealsSince_of_values (by decide)⟩ ?_
  iterate 7 refine .of_cons ⟨trivial, revealsSince_of_values (by decide)⟩ ?_
  exact .refl

/-- The task has moved to the consensus. -/
def settledOn : Pool := [.update "0x1", .update "0x1"].foldl Event.apply announced

/-- The two updates leave the chain alone. -/
theorem runs_settledOn :
    blank.Runs (fun q e => e.Plain ∧ (e.apply q).chain.RevealsSince fun _ => 7) settledOn :=
  runs_announced.trans <|
    .of_cons ⟨trivial, revealsSince_of_values (by decide)⟩ <|
    .of_cons ⟨trivial, revealsSince_of_values (by decide)⟩ .refl

/-- After the move the worker is told the block of the chain. -/
theorem reveal_block_iff_settledOn :
    ∃ told q c, settledOn.attempt (missedNotifications 9 "0xa") = (.ok [told], q) ∧
      told.instruction = .reveal ∧ settledOn.chain.task? told.chainTaskId = some c ∧
      c.status = .revealing ∧ c.revealingBlock = 7 ∧ told.extra.block = some c.revealingBlock := by
  obtain ⟨ns, q, hanswer, h⟩ := reveal_block_iff isNew_blank.wellKept.keyed
    (fun id t ht => nomatch ht) (revealsSince_of_values (by decide)) runs_settledOn 9 "0xa"
  have hns : (settledOn.notices "0xa" 9 (settledOn.tasksOf "0xa")).map
      (fun n => (n.chainTaskId, n.instruction)) = [("0x1", .reveal)] := by decide
  rw [← eq_notices_of_attempt hanswer] at hns
  obtain ⟨told, rfl, htold⟩ := List.map_eq_singleton_iff.1 hns
  have hid : told.chainTaskId = "0x1" := congrArg Prod.fst htold
  have hreveal : told.instruction = .reveal := congrArg Prod.snd htold
  have hc : ∃ c, settledOn.chain.task? told.chainTaskId = some c ∧ c.status = .revealing ∧
      c.revealingBlock = 7 := by
    rw [hid]
    exact ⟨_, rfl, rfl, rfl⟩
  obtain ⟨c, hc, hstatus, hseven⟩ := hc
  obtain ⟨t, ht, -, hblock⟩ := h told List.mem_cons_self hreveal c hc hstatus
  have hphase : t.phase? = some .reveal := by
    have hstored : (settledOn.store.task? "0x1").bind (·.phase?) = some .reveal := by decide
    rw [← hid, ht] at hstored
    exact hstored
  exact ⟨told, q, c, hanswer, hreveal, hc, hstatus, hseven, hblock.2 (.inl hphase)⟩

/-- Before that the worker is told to reveal as well, with a block at which nothing began. -/
theorem reveal_block_unknown :
    blank.Runs (fun q e => e.Plain ∧ (e.apply q).chain.RevealsSince fun _ => 7) announced ∧
      (announced.chain.task? "0x1").map (fun c => (c.status, c.revealingBlock)) =
        some (.revealing, 7) ∧
      ∃ told q, announced.attempt (missedNotifications 9 "0xa") = (.ok [told], q) ∧
        told.chainTaskId = "0x1" ∧ told.instruction = .reveal ∧ told.extra.block = some 0 := by
  have htold : (announced.notices "0xa" 9 (announced.tasksOf "0xa")).map
      (fun n => (n.chainTaskId, n.instruction, n.extra.block)) = [("0x1", .reveal, some 0)] := by
    decide
  obtain ⟨told, hns, htold⟩ := List.map_eq_singleton_iff.1 htold
  have hanswer := announced.attempt_missedNotifications 9 "0xa"
  rw [hns] at hanswer
  exact ⟨runs_announced, by decide, told, _, hanswer, congrArg (·.1) htold,
    congrArg (·.2.1) htold, congrArg (·.2.2) htold⟩

end Pool

end ComputePool
