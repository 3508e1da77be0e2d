import ComputePool.Proofs.Admission

/-!
# Who gets which task

A request for work is answered by a rule that says nothing of scans and attempts
(`Pool.FirstFit`). A task is admissible for a worker (`Pool.IsAdmissible`) if it is open, the
worker may run it, nobody holds its lock, and its list has room for the worker. The worker gets an
admissible task that no other admissible task precedes, and gets none only if there is none.

The scan agrees with the rule because an attempt that fails leaves no trace (`Pool.Decided`): a
task that was passed over is still not admissible when the last one is tried.
-/

namespace ComputePool

namespace Pool

/-- The task is stored and open, and the worker may run it. -/
structure IsCandidate (p : Pool) (w : Worker) (t : Task) : Prop where
  stored : p.store.task? t.chainTaskId = some t
  isOpen : t.status = .initialized ∨ t.status = .running
  enclave : t.tee = true → w.teeEnabled = true

/-- The list of the task has no replicate of the worker, is below the trust target without those
that are lost or in error, and does not agree with a consensus on chain. -/
structure HasPlace (p : Pool) (wallet : String) (t : Task) (l : ReplicateList) : Prop where
  list : p.store.list? t.chainTaskId = some l
  newcomer : ∀ r ∈ l.replicates, r.wallet ≠ wallet
  wanted : (l.replicates.filter fun r => r.status ≠ .workerLost ∧ r.status ≠ .error).length <
    max t.trust.toNat 1
  undecided : p.hasConsensus l = false

/-- The task can take the worker. -/
structure IsAdmissible (p : Pool) (w : Worker) (wallet : String) (t : Task) : Prop where
  candidate : p.IsCandidate w t
  challenge : t.enclaveChallenge ≠ ""
  unlocked : p.locks.isHeld t.chainTaskId = false
  place : ∃ l, p.HasPlace wallet t l

variable {p q : Pool} {w : Worker} {wallet : String} {t : Task}

/-! ## The rule and the attempts -/

/-- The open tasks that were not tried yet. -/
theorem mem_openTasks_iff (hk : p.store.Keyed) {scanned : List String} :
    t ∈ p.store.openTasks (!w.teeEnabled) scanned ↔
      p.IsCandidate w t ∧ t.chainTaskId ∉ scanned := by
  have henclave : ((!w.teeEnabled) = true → t.tee = false) ↔
      (t.tee = true → w.teeEnabled = true) := by
    cases t.tee <;> cases w.teeEnabled <;> decide
  rw [hk.mem_openTasks_iff, henclave]
  exact ⟨fun ⟨hstored, hopen, henclave, hnew⟩ => ⟨⟨hstored, hopen, henclave⟩, hnew⟩,
    fun ⟨⟨hstored, hopen, henclave⟩, hnew⟩ => ⟨hstored, hopen, henclave, hnew⟩⟩

/-- The replicates that count are those that are neither lost nor in error. -/
theorem aliveCount_eq (l : ReplicateList) :
    l.aliveCount =
      (l.replicates.filter fun r => r.status ≠ .workerLost ∧ r.status ≠ .error).length := by
  have halive : Replicate.isAlive =
      fun r => decide (r.status ≠ .workerLost ∧ r.status ≠ .error) := by
    funext r
    unfold Replicate.isAlive
    cases r.status <;> decide
  unfold ReplicateList.aliveCount
  rw [halive, List.countP_eq_length_filter]

/-- There is room in a task if its list has a place and there is no consensus yet. -/
theorem hasRoom_iff : p.hasRoom t wallet = true ↔ ∃ l, p.HasPlace wallet t l := by
  have hnewcomer : ∀ l : ReplicateList,
      l.hasWorker wallet = false ↔ ∀ r ∈ l.replicates, r.wallet ≠ wallet := by
    intro l
    rw [← Bool.not_eq_true, ReplicateList.hasWorker_iff]
    unfold ReplicateList.wallets
    rw [List.mem_map]
    exact ⟨fun h r hr hwallet => h ⟨r, hr, hwallet⟩, fun h ⟨r, hr, hwallet⟩ => h r hr hwallet⟩
  have hadmits : ∀ l : ReplicateList, (admits t wallet l && !p.hasConsensus l) = true ↔
      l.hasWorker wallet = false ∧ l.aliveCount < max t.trust.toNat 1 ∧
        p.hasConsensus l = false := by
    intro l
    unfold admits ReplicateList.needsMore trustTarget
    rw [Bool.and_eq_true, Bool.and_eq_true, Bool.not_eq_true', Bool.not_eq_true',
      decide_eq_true_iff, and_assoc]
  unfold hasRoom
  rw [Option.any_eq_true]
  constructor
  · rintro ⟨l, hl, h⟩
    obtain ⟨hnew, hwanted, hundecided⟩ := (hadmits l).1 h
    rw [aliveCount_eq] at hwanted
    exact ⟨l, hl, (hnewcomer l).1 hnew, hwanted, hundecided⟩
  · rintro ⟨l, hl, hnew, hwanted, hundecided⟩
    rw [← aliveCount_eq] at hwanted
    exact ⟨l, hl, (hadmits l).2 ⟨(hnewcomer l).2 hnew, hwanted, hundecided⟩⟩

/-- What an attempt asks for of a worker that is known and may join. -/
theorem takes_iff : p.takes t wallet = true ↔
    t.enclaveChallenge ≠ "" ∧ p.locks.isHeld t.chainTaskId = false ∧
      ∃ l, p.HasPlace wallet t l := by
  have hchallenge : t.hasEnclaveChallenge = true ↔ t.enclaveChallenge ≠ "" := by
    unfold Task.hasEnclaveChallenge
    rw [Bool.not_eq_true', ← Bool.not_eq_true, String.isEmpty_iff]
  unfold takes
  rw [Bool.and_eq_true, Bool.and_eq_true, Bool.not_eq_true', hchallenge, hasRoom_iff, and_assoc]

/-- The admissible tasks are the candidates that an attempt would enter. -/
theorem isAdmissible_iff :
    p.IsAdmissible w wallet t ↔ p.IsCandidate w t ∧ p.takes t wallet = true := by
  rw [takes_iff]
  exact ⟨fun h => ⟨h.candidate, h.challenge, h.unlocked, h.place⟩,
    fun ⟨hcandidate, hchallenge, hunlocked, hplace⟩ =>
      ⟨hcandidate, hchallenge, hunlocked, hplace⟩⟩

/-! ## What an attempt that fails leaves -/

/-- Nothing differs but when locks were last asked for. -/
structure Undisturbed (p q : Pool) : Prop where
  likewise : p.Likewise q
  relocked : p.dispatcher.Relocked q.dispatcher

theorem Undisturbed.refl (p : Pool) : p.Undisturbed p := ⟨.refl p, .refl _⟩

theorem Undisturbed.trans {r : Pool} (h : p.Undisturbed q) (h' : q.Undisturbed r) :
    p.Undisturbed r := ⟨h.likewise.trans h'.likewise, h.relocked.trans h'.relocked⟩

/-- Whether a task can be tried does not change with an attempt that fails. -/
theorem Undisturbed.isCandidate (h : p.Undisturbed q) : q.IsCandidate w t ↔ p.IsCandidate w t := by
  have hstore : q.store = p.store := congrArg (·.store) h.likewise
  exact ⟨fun ⟨hs, ho, he⟩ => ⟨hstore ▸ hs, ho, he⟩, fun ⟨hs, ho, he⟩ => ⟨hstore ▸ hs, ho, he⟩⟩

/-- A task takes the worker after an attempt that failed just where it would have before. -/
theorem Undisturbed.takes (h : p.Undisturbed q) : q.takes t wallet = p.takes t wallet := by
  have hheld : q.locks.isHeld t.chainTaskId = p.locks.isHeld t.chainTaskId := h.relocked.held _
  have hroom : q.hasRoom t wallet = p.hasRoom t wallet := by
    rw [h.likewise]
    rfl
  unfold Pool.takes
  rw [hheld, hroom]

/-- The same tasks are admissible after an attempt that failed. -/
theorem Undisturbed.isAdmissible (h : p.Undisturbed q) :
    q.IsAdmissible w wallet t ↔ p.IsAdmissible w wallet t := by
  rw [isAdmissible_iff, isAdmissible_iff, h.isCandidate, h.takes]

/-! ## The scan -/

/-- The worker was admitted into the task: one replicate was added to its list, the task to the
worker's own lists, and nothing else differs but when locks were last asked for. -/
structure Admitted (p : Pool) (wallet id : String) (q : Pool) : Prop where
  enrolled : p.Enrolled id wallet q
  others : q = { p with store := q.store, registry := q.registry, dispatcher := q.dispatcher }
  relocked : p.dispatcher.Relocked q.dispatcher

/-- An admission after an attempt that failed is an admission from where that began. -/
theorem Undisturbed.admitted {r : Pool} {id : String} (h : p.Undisturbed q)
    (hr : q.Admitted wallet id r) : p.Admitted wallet id r := by
  refine ⟨hr.enrolled.of_likewise h.likewise, ?_, h.relocked.trans hr.relocked⟩
  have hothers := hr.others
  rw [h.likewise] at hothers
  exact hothers

/-- The answer to a worker that may join, and what it leaves: the worker gets an admissible task
that no other admissible task precedes; it gets none, and nothing happens, only if there is no
admissible task. -/
structure FirstFit (p : Pool) (w : Worker) (wallet : String) (answer : Option Authorization)
    (q : Pool) : Prop where
  isSome_iff : answer.isSome ↔ ∃ t, p.IsAdmissible w wallet t
  refused : answer = none → p.Undisturbed q
  accepted : ∀ a, answer = some a → ∃ t, p.IsAdmissible w wallet t ∧
    (∀ u, p.IsAdmissible w wallet u → ¬ u.precedes t) ∧
    a = p.signer.authorize wallet t.chainTaskId t.enclaveChallenge ∧
    p.Admitted wallet t.chainTaskId q

/-- The first fit after an attempt that failed is the first fit from where that began. -/
theorem FirstFit.of_undisturbed {answer : Option Authorization} {r : Pool} (h : p.Undisturbed q)
    (hfit : q.FirstFit w wallet answer r) : p.FirstFit w wallet answer r := by
  refine ⟨hfit.isSome_iff.trans (exists_congr fun _ => h.isAdmissible),
    fun hnone => h.trans (hfit.refused hnone), fun a ha => ?_⟩
  obtain ⟨t, ht, hfirst, hsigned, hadmitted⟩ := hfit.accepted a ha
  have hsigner : q.signer = p.signer := congrArg (·.signer) h.likewise
  exact ⟨t, h.isAdmissible.1 ht, fun u hu => hfirst u (h.isAdmissible.2 hu), hsigner ▸ hsigned,
    h.admitted hadmitted⟩

/-- The scan answers by the rule as long as no task that was passed over is admissible. -/
theorem Scans.firstFit {attempts : Nat} {scanned : List String} {answer : Option Authorization}
    (h : Scans w wallet (attempts + 1) scanned p answer q) (hk : p.store.Keyed)
    (hprompt : p.locks.Prompt) (hw : p.Welcome wallet)
    (hpassed : ∀ t, p.IsAdmissible w wallet t → t.chainTaskId ∉ scanned) :
    p.FirstFit w wallet answer q := by
  induction h with
  | @exhausted scanned p best =>
    have hnone : ¬ ∃ t, p.IsAdmissible w wallet t := by
      rintro ⟨t, ht⟩
      have hmem := (mem_openTasks_iff hk).2 ⟨ht.candidate, hpassed t ht⟩
      rw [Task.best?_eq_none.1 best] at hmem
      exact absurd hmem List.not_mem_nil
    exact ⟨iff_of_false (by simp) hnone, fun _ => .refl p, fun a ha => absurd ha (by simp)⟩
  | @taken scanned p q t best accepted =>
    obtain ⟨q', hq', hdecided⟩ := perform_admitRepeatedly hk hw t attempts
    obtain ⟨htakes, rfl⟩ := Prod.mk.inj (hq'.symm.trans accepted)
    obtain ⟨hcandidate, -⟩ := (mem_openTasks_iff hk).1 (Task.best?_mem best)
    have hadmissible : p.IsAdmissible w wallet t := isAdmissible_iff.2 ⟨hcandidate, htakes⟩
    have henrolled := hdecided.records
    rw [if_pos htakes] at henrolled
    refine ⟨iff_of_true rfl ⟨t, hadmissible⟩, fun hnone => absurd hnone (by simp), fun a ha => ?_⟩
    refine ⟨t, hadmissible, fun u hu => ?_, ?_, henrolled, hdecided.others,
      hdecided.relocked hprompt⟩
    · exact Task.not_precedes_best? best u
        ((mem_openTasks_iff hk).2 ⟨hu.candidate, hpassed u hu⟩)
    · rw [← Option.some.inj ha, hdecided.others]
  | @passed scanned p q r t answer best refused rest ih =>
    obtain ⟨q', hq', hdecided⟩ := perform_admitRepeatedly hk hw t attempts
    obtain ⟨htakes, rfl⟩ := Prod.mk.inj (hq'.symm.trans refused)
    have hsame := hdecided.records
    rw [htakes] at hsame
    have hundisturbed : p.Undisturbed q' := ⟨hsame, hdecided.relocked hprompt⟩
    have hprompt' : q'.locks.Prompt := by
      have hleads := admitRepeatedly_admits t wallet (attempts + 1) p
      rw [refused] at hleads
      exact prompt_leads hprompt hleads
    refine .of_undisturbed hundisturbed
      (ih (hundisturbed.likewise.keyed hk) hprompt' (hundisturbed.likewise.welcome hw) ?_)
    -- the task that was tried last does not take the worker, before and after
    intro u hu hmem
    have hu := hundisturbed.isAdmissible.1 hu
    rcases List.mem_append.1 hmem with hmem | hmem
    · exact hpassed u hu hmem
    · obtain ⟨hstored, -⟩ := hk.bestOpenTask? best
      have hid := List.mem_singleton.1 hmem
      obtain rfl : u = t := by
        have hu' := hu.candidate.stored
        rw [hid, hstored] at hu'
        exact (Option.some.inj hu').symm
      exact absurd ((isAdmissible_iff.1 hu).2.symm.trans htakes) (by simp)

/-! ## The request -/

/-- How a request for work may be answered, and what the answer leaves. -/
inductive Answered (p : Pool) (lastBlock : UInt64) (wallet : String) :
    Option Authorization → Pool → Prop where
  /-- No task is admissible, or the worker is unknown or not ready. -/
  | turnedDown {q : Pool} (same : p.Undisturbed q)
      (never : ∀ w t, p.registry.worker? wallet = some w → p.IsReady lastBlock w →
        ¬ p.IsAdmissible w wallet t) : Answered p lastBlock wallet none q
  /-- The worker may not join. -/
  | removed (banned : p.registry.isAllowed wallet = false) :
      Answered p lastBlock wallet none { p with registry := p.registry.remove wallet }
  | admitted {w : Worker} {t : Task} {q : Pool} (known : p.registry.worker? wallet = some w)
      (ready : p.IsReady lastBlock w) (admissible : p.IsAdmissible w wallet t)
      (after : p.Admitted wallet t.chainTaskId q) :
      Answered p lastBlock wallet
        (some (p.signer.authorize wallet t.chainTaskId t.enclaveChallenge)) q

/-- Every request for work is answered. -/
theorem exists_answered (hk : p.store.Keyed) (hprompt : p.locks.Prompt)
    (hattempts : 0 < p.maxAttempts) (lastBlock : UInt64) (wallet : String) :
    ∃ answer q, p.attempt (findAuthorization lastBlock wallet) = (.ok answer, q) ∧
      p.Answered lastBlock wallet answer q := by
  by_cases hready : ∃ w, p.registry.worker? wallet = some w ∧ p.IsReady lastBlock w
  · obtain ⟨w, hw, hready⟩ := hready
    obtain ⟨answer, q, hq, hscans⟩ := attempt_findAuthorization hw hready
    refine ⟨answer, q, hq, ?_⟩
    obtain ⟨attempts, hmax⟩ := Nat.exists_eq_succ_of_ne_zero (Nat.pos_iff_ne_zero.1 hattempts)
    rw [hmax] at hscans
    cases hallowed : p.registry.isAllowed wallet with
    | true =>
      have hfit := hscans.firstFit hk hprompt ⟨⟨w, hw⟩, hallowed⟩ fun _ _ => List.not_mem_nil
      cases answer with
      | none =>
        refine .turnedDown (hfit.refused rfl) ?_
        intro w' t hw' _ ht
        obtain rfl := Option.some.inj (hw.symm.trans hw')
        exact absurd (hfit.isSome_iff.2 ⟨t, ht⟩) (by simp)
      | some a =>
        obtain ⟨t, ht, -, rfl, hadmitted⟩ := hfit.accepted a rfl
        exact .admitted hw hready ht hadmitted
    | false =>
      obtain ⟨rfl, rfl⟩ := hscans.banned hallowed
      split
      · next hnone =>
        -- without an open task nobody was tried, nor removed
        refine .turnedDown (.refl p) ?_
        intro w' t hw' _ ht
        obtain rfl := Option.some.inj (hw.symm.trans hw')
        have hmem := (mem_openTasks_iff hk).2 ⟨ht.candidate, List.not_mem_nil⟩
        rw [hnone] at hmem
        exact absurd hmem List.not_mem_nil
      · exact .removed hallowed
  · have hunready : ∀ w, p.registry.worker? wallet = some w → ¬ p.IsReady lastBlock w := by
      intro w hw h
      exact hready ⟨w, hw, h⟩
    refine ⟨none, p, attempt_findAuthorization_unready hunready, .turnedDown (.refl p) ?_⟩
    intro w t hw hready' _
    exact hunready w hw hready'

/-- A request for work is answered by first fit. A worker that is unknown or not ready gets
nothing and nothing changes; one that may not join gets nothing, and is removed if there is a
candidate; any other gets the first admissible task. -/
theorem first_fit (hp : p.Reachable) (hattempts : 0 < p.maxAttempts) (lastBlock : UInt64)
    (wallet : String) :
    ∃ answer q, p.attempt (findAuthorization lastBlock wallet) = (.ok answer, q) ∧
      ((∀ w, p.registry.worker? wallet = some w → ¬ p.IsReady lastBlock w) →
        answer = none ∧ q = p) ∧
      ∀ w, p.registry.worker? wallet = some w → p.IsReady lastBlock w →
        (p.registry.isAllowed wallet = false → answer = none ∧
          ((∃ t, p.IsCandidate w t) → q = { p with registry := p.registry.remove wallet }) ∧
          ((¬ ∃ t, p.IsCandidate w t) → q = p)) ∧
        (p.registry.isAllowed wallet = true → p.FirstFit w wallet answer q) := by
  have hk : p.store.Keyed := hp.wellKept.keyed
  by_cases hready : ∃ w, p.registry.worker? wallet = some w ∧ p.IsReady lastBlock w
  · obtain ⟨w, hw, hready⟩ := hready
    obtain ⟨answer, q, hq, hscans⟩ := attempt_findAuthorization hw hready
    refine ⟨answer, q, hq, fun h => absurd hready (h w hw), fun w' hw' _ => ?_⟩
    obtain rfl := Option.some.inj (hw.symm.trans hw')
    obtain ⟨attempts, hmax⟩ := Nat.exists_eq_succ_of_ne_zero (Nat.pos_iff_ne_zero.1 hattempts)
    rw [hmax] at hscans
    refine ⟨fun hban => ?_, fun hallowed => ?_⟩
    · obtain ⟨hnone, hq⟩ := hscans.banned hban
      have hempty : p.store.openTasks (!w.teeEnabled) [] = [] ↔ ¬ ∃ t, p.IsCandidate w t := by
        rw [List.eq_nil_iff_forall_not_mem, not_exists]
        refine forall_congr' fun t => not_congr ((mem_openTasks_iff hk).trans ?_)
        exact and_iff_left List.not_mem_nil
      refine ⟨hnone, fun hsome => ?_, fun hnone => ?_⟩
      · rw [hq, if_neg fun h => hempty.1 h hsome]
        rfl
      · rw [hq, if_pos (hempty.2 hnone)]
    · exact hscans.firstFit hk hp.prompt ⟨⟨w, hw⟩, hallowed⟩ fun _ _ => List.not_mem_nil
  · have hunready : ∀ w, p.registry.worker? wallet = some w → ¬ p.IsReady lastBlock w :=
      fun w hw h => hready ⟨w, hw, h⟩
    refine ⟨none, p, attempt_findAuthorization_unready hunready, fun _ => ⟨rfl, rfl⟩, ?_⟩
    exact fun w hw h => absurd h (hunready w hw)

/-- A plain task in a status that needs no enclave. -/
def plainIn (id : String) (status : TaskStatus) : Task :=
  { (Task.plain id).changeStatus .epoch status with enclaveChallenge := emptyEnclaveChallenge }

/-- A pool with a worker and two open tasks. The better one is locked. -/
def contended : Pool := blank.after [
  .insertTask (plainIn "0x1" .initialized),
  .createList "0x1",
  .insertTask (plainIn "0x2" .running),
  .createList "0x2",
  .addWorker (.fresh .epoch "0xa" 1),
  .tryLock "0x2"]

/-- The better task is locked, so the worker gets the other one. -/
theorem first_fit_contended : contended.Reachable ∧ 0 < contended.maxAttempts ∧
    ∃ w a q, contended.registry.worker? "0xa" = some w ∧ contended.IsReady 1 w ∧
      contended.attempt (findAuthorization 1 "0xa") = (.ok (some a), q) ∧
      contended.FirstFit w "0xa" (some a) q := by
  have hreachable : contended.Reachable := isNew_blank.reachable.after _
  have hready : contended.IsReady 1 (.fresh .epoch "0xa" 1) := ⟨by decide, by decide, by decide⟩
  obtain ⟨answer, q, hq, -, h⟩ := first_fit hreachable (by decide) 1 "0xa"
  have hfit := (h _ rfl hready).2 rfl
  have hadmissible : ∃ t, contended.IsAdmissible (.fresh .epoch "0xa" 1) "0xa" t := by
    exact ⟨plainIn "0x1" .initialized, ⟨rfl, .inl rfl, by decide⟩, by decide, rfl,
      .empty "0x1", rfl, fun r hr => absurd hr List.not_mem_nil, by decide, rfl⟩
  obtain ⟨a, rfl⟩ := Option.isSome_iff_exists.1 (hfit.isSome_iff.2 hadmissible)
  exact ⟨hreachable, by decide, _, a, q, rfl, hready, hq, hfit⟩

end Pool

end ComputePool
