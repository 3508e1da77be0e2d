import ComputePool.Proofs.Draining.Following
import ComputePool.Proofs.Lifecycle
import ComputePool.Proofs.Recovery.Idempotence
import ComputePool.Proofs.Recovery.Reveal

/-!
# A consensus that recovery saw

A worker that is told to reveal while contributions are awaited was told so because recovery found
its list in agreement with the chain. The task has yet to find out by itself, and if its
contributions are due by then, all depends on whether it finds the same.

It does if nothing comes between the answer and the drain of the queue. What was told would be told
again at the end of the whole answer (`Pool.IsTold.noticedAll`), so the task is queued and the
agreement still there (`Pool.awaitsConsensus_of_told`). Each call leaves it before the task or moves
the task on towards it, and the task does not time out on the way (`Pool.Heeds.call`).
-/

namespace ComputePool

/-- From a consensus on no move leads to a timeout. -/
theorem TaskStatus.contributionTimeout_notMem_successors {a : TaskStatus}
    (h : consensusReached ≤ a) : contributionTimeout ∉ a.successors := by
  revert h
  cases a <;> decide

namespace Outlook

variable {o o' : Outlook} {t t' : Task}

/-- An open task in time moves towards a consensus that is there. -/
theorem next_of_hasConsensus (hopen : t.status.isOpen = true)
    (htime : t.finalDeadlineReached o.now = false) (h : o.hasConsensus t = true) :
    t.status = .initialized ∧ o.next t = some .running ∨
      t.status = .running ∧ o.next t = some .consensusReached := by
  have hoverdue : o.isOverdue t = false := by
    unfold isOverdue
    rw [htime, Bool.and_false]
  unfold next
  rw [hoverdue, h]
  cases hs : t.status with
  | initialized => exact .inl ⟨rfl, rfl⟩
  | running => exact .inr ⟨rfl, rfl⟩
  | _ => exact absurd (hs ▸ hopen) (by decide)

/-- A consensus is read off the chain, the list and the id. -/
theorem hasConsensus_congr (hchain : o'.chainTask = o.chainTask) (hlist : o'.list = o.list)
    (hid : t'.chainTaskId = t.chainTaskId) : o'.hasConsensus t' = o.hasConsensus t := by
  unfold hasConsensus listOf
  rw [hchain, hlist, hid]

end Outlook

namespace Pool

variable {p q : Pool} {t u : Task} {id wallet : String} {block : UInt64} {told : Notification}

/-! ## At the end of the answer -/

/-- What the worker was told about a task it would be told again after being told about others, and
about the same task once more. -/
theorem IsTold.noticedAll (h : p.IsTold t wallet) (hp : p.WellKept) (block : UInt64)
    {ts : List Task} (hsame : ∀ u ∈ ts, u.chainTaskId = t.chainTaskId → u = t) :
    (p.noticedAll wallet block ts).IsTold t wallet ∧
      ∀ block', (p.noticedAll wallet block ts).notice? t wallet block' =
        p.notice? t wallet block' := by
  induction ts generalizing p with
  | nil => exact ⟨h, fun _ => rfl⟩
  | cons u rest ih =>
    have hleads := p.leads_noticed u wallet block
    have hrest := fun v hv => hsame v (List.mem_cons_of_mem u hv)
    have hfirst : (p.noticed u wallet block).IsTold t wallet ∧
        ∀ block', (p.noticed u wallet block).notice? t wallet block' =
          p.notice? t wallet block' := by
      by_cases hid : u.chainTaskId = t.chainTaskId
      · obtain rfl := hsame u List.mem_cons_self hid
        rw [h.noticed hp block]
        split
        · next hsome => exact h.marked hp hsome
        · exact ⟨h, fun _ => rfl⟩
      · have hlist := p.list?_noticed_of_ne wallet block hid
        exact ⟨h.congr hp hleads hlist, fun _ => notice?_congr (.of_leads hleads) hlist⟩
    obtain ⟨htold, hagain⟩ := ih hfirst.1 (hp.leads hleads) hrest
    exact ⟨htold, fun block' => (hagain block').trans (hfirst.2 block')⟩

/-- What the worker was told about one of its tasks it would be told again at the end. -/
theorem exists_isTold (hp : p.WellKept) {ts : List Task}
    (hsame : ∀ t ∈ ts, ∀ u ∈ ts, u.chainTaskId = t.chainTaskId → u = t)
    (htold : told ∈ p.notices wallet block ts) :
    ∃ t ∈ ts, (p.noticedAll wallet block ts).IsTold t wallet ∧
      (p.noticedAll wallet block ts).notice? t wallet block = some told := by
  induction ts generalizing p with
  | nil => exact absurd htold List.not_mem_nil
  | cons t rest ih =>
    have hp' : (p.noticed t wallet block).WellKept := hp.leads (p.leads_noticed t wallet block)
    rw [notices_cons, List.mem_append, Option.mem_toList] at htold
    rcases htold with hfirst | hrest
    · obtain ⟨hnow, hagain⟩ := isTold_noticed hp t wallet block
      obtain ⟨hend, hend'⟩ := hnow.noticedAll hp' block fun u hu =>
        hsame t List.mem_cons_self u (List.mem_cons_of_mem t hu)
      exact ⟨t, List.mem_cons_self, hend, (hend' block).trans ((hagain block).trans hfirst)⟩
    · obtain ⟨u, hu, hend⟩ := ih hp' (fun u hu v hv => hsame u (List.mem_cons_of_mem t hu) v
        (List.mem_cons_of_mem t hv)) hrest
      exact ⟨u, List.mem_cons_of_mem t hu, hend⟩

/-- The task is open and in time, and its replicates agree with the chain on a consensus. -/
structure AwaitsConsensus (p : Pool) (id : String) (t : Task) : Prop where
  isOpen : t.status.isOpen = true
  inTime : t.finalDeadlineReached p.now = false
  agreed : (p.outlook id).hasConsensus t = true

/-- Whoever would be told again to reveal is told so for a consensus that is there, and the task is
queued. -/
theorem IsTold.agreed (h : p.IsTold t wallet) (hk : p.store.Keyed)
    (hphase : t.phase? = some .contribution) (hnotice : p.notice? t wallet block = some told)
    (hreveal : told.instruction = .reveal) :
    (p.outlook t.chainTaskId).hasConsensus t = true ∧ p.Absorbs t.chainTaskId := by
  obtain ⟨r, hr, hnotice⟩ := Option.bind_eq_some_iff.1 hnotice
  obtain ⟨i, hadvice, rfl⟩ := Option.map_eq_some_iff.1 hnotice
  obtain rfl : i = .reveal := hreveal
  obtain ⟨hnone, habsorbs⟩ := h r hr block
  refine ⟨?_, habsorbs hphase hadvice⟩
  have hagreed := isAgreed_of_reveal hphase hadvice
  unfold isAgreed at hagreed
  rw [caughtUp_of_none hnone] at hagreed
  obtain ⟨l, hl, hconsensus⟩ := (Option.any_eq_true _ _).1 hagreed
  unfold hasConsensus at hconsensus
  rw [hk.list hl] at hconsensus
  unfold Outlook.hasConsensus Outlook.listOf outlook
  rw [hl]
  exact hconsensus

/-- At the end of an answer with an instruction to reveal an open task in time, the consensus is
before the task, and the task is queued. -/
theorem awaitsConsensus_of_told (hp : p.WellKept)
    (htold : told ∈ p.notices wallet block (p.tasksOf wallet))
    (hreveal : told.instruction = .reveal)
    (hnamed : told.chainTaskId ≠ "") (ht : p.store.task? told.chainTaskId = some t)
    (hopen : t.status.isOpen = true) (htime : t.finalDeadlineReached p.now = false) :
    let q := p.noticedAll wallet block (p.tasksOf wallet)
    q.store.task? told.chainTaskId = some t ∧ q.AwaitsConsensus told.chainTaskId t ∧
      told.chainTaskId ∈ q.queue.ids := by
  intro q
  have hstored : ∀ u ∈ p.tasksOf wallet, p.store.task? u.chainTaskId = some u :=
    fun u => task?_of_mem_tasksOf hp.keyed
  have hsame : ∀ u ∈ p.tasksOf wallet, ∀ v ∈ p.tasksOf wallet,
      v.chainTaskId = u.chainTaskId → v = u := by
    intro u hu v hv hid
    have hv := hstored v hv
    rw [hid, hstored u hu] at hv
    exact (Option.some.inj hv).symm
  obtain ⟨u, hu, hisTold, hnotice⟩ := exists_isTold hp hsame htold
  have hid : told.chainTaskId = u.chainTaskId := (notice?_chainTaskId hnotice).1
  have hleads := p.leads_noticedAll wallet block (p.tasksOf wallet)
  have hrecovered : p.Recovered q := .of_leads hleads
  -- the worker was told about the task as it is stored
  obtain rfl : t = u := by
    rw [hid, hstored u hu] at ht
    exact (Option.some.inj ht).symm
  have hphase : t.phase? = some .contribution := phase?_of_isOpen hopen
  obtain ⟨hagreed, habsorbs⟩ := hisTold.agreed (hp.leads hleads).keyed hphase hnotice hreveal
  have hstill : q.store.task? told.chainTaskId = some t := by
    unfold Store.task?
    rw [hrecovered.tasks]
    exact ht
  refine ⟨hstill, ⟨hopen, hrecovered.now ▸ htime, hid ▸ hagreed⟩, ?_⟩
  rw [← hid] at habsorbs
  rcases habsorbs with hempty | hqueued | hunknown
  · exact absurd hempty hnamed
  · exact hqueued
  · exact absurd (hunknown.symm.trans hstill) (by simp)

/-! ## In the drain -/

/-- The task is stored, has gone through some new statuses, and did not time out. Its consensus is
still before it, or it moved to it. -/
structure Heeds (p : Pool) (id : String) (t : Task) (new : List TaskStatus) : Prop where
  stored : p.store.task? id = some t
  untimed : .contributionTimeout ∉ new
  consensus : p.AwaitsConsensus id t ∨
    .consensusReached ∈ new ∧ .consensusReached ≤ t.status ∧ t.status ≠ .contributionTimeout

/-- A call keeps what the drain is about. -/
theorem Heeds.call {new : List TaskStatus} (h : p.Heeds id t new) (hp : p.WellKept) (r : Request) :
    ∃ u more, u.statuses = t.statuses ++ more ∧ (p.call r).Heeds id u (new ++ more) := by
  obtain ⟨hnow, hchain⟩ := now_call hp r
  have hawaits : ∀ u : Task, u.status.isOpen = true → u.finalDeadline = t.finalDeadline →
      u.chainTaskId = t.chainTaskId → (p.call r).store.list? id = p.store.list? id →
      p.AwaitsConsensus id t → (p.call r).AwaitsConsensus id u := by
    intro u hopen hfinal hid hlist h
    refine ⟨hopen, ?_, ?_⟩
    · unfold Task.finalDeadlineReached
      rw [hfinal, hnow]
      exact h.inTime
    · rw [← h.agreed]
      exact Outlook.hasConsensus_congr (congrArg (·.task? id) hchain) hlist hid
  cases onCall hp r id with
  | kept task list =>
    refine ⟨t, [], (List.append_nil _).symm, task.trans h.stored, ?_, ?_⟩
    · rw [List.append_nil]
      exact h.untimed
    · rw [List.append_nil]
      exact h.consensus.imp_left fun ha => hawaits t ha.isOpen rfl rfl list ha
  | moved t' s served stored due task list worker =>
    obtain rfl := Option.some.inj (stored.symm.trans h.stored)
    -- the statuses so far, with one that is no timeout
    have huntimed : s ≠ .contributionTimeout → .contributionTimeout ∉ new ++ [s] := by
      intro hs hmem
      rcases List.mem_append.1 hmem with hmem | hmem
      · exact h.untimed hmem
      · exact hs (List.mem_singleton.1 hmem).symm
    refine ⟨_, [s], Task.statuses_moved (p.outlook id) s t', ?_⟩
    rcases h.consensus with ha | ⟨hreached, hpast, -⟩
    · rcases Outlook.next_of_hasConsensus (o := p.outlook id) ha.isOpen ha.inTime ha.agreed with
        ⟨-, hnext⟩ | ⟨-, hnext⟩
      · obtain rfl := Option.some.inj (due.symm.trans hnext)
        refine ⟨task, huntimed (by decide), .inl ?_⟩
        exact hawaits _ rfl ((p.outlook id).moved_terms _ t').2.2.2
          ((p.outlook id).moved_chainTaskId _ t') list ha
      · obtain rfl := Option.some.inj (due.symm.trans hnext)
        have hmem : .consensusReached ∈ new ++ [.consensusReached] :=
          List.mem_append_right _ (List.mem_singleton_self _)
        exact ⟨task, huntimed (by decide), .inr ⟨hmem, Nat.le_refl _, TaskStatus.noConfusion⟩⟩
    · have hmem := (p.outlook id).next_mem_successors due
      have hlater := Nat.le_of_lt (Nat.lt_of_le_of_lt hpast (TaskStatus.lt_of_mem_successors hmem))
      have hne : s ≠ .contributionTimeout := by
        rintro rfl
        exact TaskStatus.contributionTimeout_notMem_successors hpast hmem
      exact ⟨task, huntimed hne, .inr ⟨List.mem_append_left _ hreached, hlater, hne⟩⟩

/-- So does the whole drain. -/
theorem Heeds.drains {calls applied : Nat} {new : List TaskStatus} (h : p.Heeds id t new)
    (hp : p.WellKept) (hq : p.Drains calls applied q) :
    ∃ u more, u.statuses = t.statuses ++ more ∧ q.Heeds id u (new ++ more) := by
  refine hq.keeps (P := fun q => ∃ u more, u.statuses = t.statuses ++ more ∧
    q.Heeds id u (new ++ more)) hp ?_ ⟨t, [], (List.append_nil _).symm, ?_⟩
  · rintro q r hq ⟨u, more, hu, h⟩
    obtain ⟨v, more', hv, h'⟩ := h.call hq r
    refine ⟨v, more ++ more', ?_, ?_⟩
    · rw [hv, hu, List.append_assoc]
    · rw [← List.append_assoc]
      exact h'
  · rw [List.append_nil]
    exact h

/-- A consensus that recovery saw is acted upon. If a worker is told to reveal a task that still
awaits contributions and is not past its final deadline, and nothing else happens until the queue is
drained, then the drain ends; whatever the order of its calls, the task never times out on the way,
not even if its contributions were due, and at the end it has reached the consensus. -/
theorem consensus_acted_upon (hp : p.Reachable) (block : UInt64) (wallet : String) :
    ∃ ns q, p.attempt (missedNotifications block wallet) = (.ok ns, q) ∧
      (∃ calls applied s, q.Drains calls applied s ∧ s.queue.size = 0) ∧
      ∀ told ∈ ns, told.instruction = .reveal → told.chainTaskId ≠ "" →
        ∀ t, p.store.task? told.chainTaskId = some t → t.status.isOpen = true →
          t.finalDeadlineReached p.now = false →
          ∀ calls applied s, q.Drains calls applied s →
            ∃ u new, s.store.task? told.chainTaskId = some u ∧ u.statuses = t.statuses ++ new ∧
              .contributionTimeout ∉ new ∧ u.status ≠ .contributionTimeout ∧
              (s.queue.size = 0 → .consensusReached ∈ new) := by
  have hleads := p.leads_noticedAll wallet block (p.tasksOf wallet)
  have hq := hp.wellKept.leads hleads
  refine ⟨_, _, p.attempt_missedNotifications block wallet, Drains.complete hq, ?_⟩
  intro told htold hreveal hnamed t ht hopen htime calls applied s hs
  obtain ⟨hstored, hawaits, hqueued⟩ :=
    awaitsConsensus_of_told hp.wellKept htold hreveal hnamed ht hopen htime
  have hstart : (p.noticedAll wallet block (p.tasksOf wallet)).Heeds told.chainTaskId t [] :=
    ⟨hstored, List.not_mem_nil, .inl hawaits⟩
  obtain ⟨u, new, hu, h⟩ := hstart.drains hq hs
  rw [List.nil_append] at h
  refine ⟨u, new, h.stored, hu, h.untimed, ?_, fun hempty => ?_⟩
  · rcases h.consensus with ha | ⟨-, -, hne⟩
    · intro hstatus
      have hopen := ha.isOpen
      rw [hstatus] at hopen
      exact absurd hopen (by decide)
    · exact hne
  · rcases h.consensus with ha | ⟨hreached, -, -⟩
    · -- a task before its consensus does not leave the queue
      have hnone := hs.next_eq_none hq hqueued hempty h.stored
      rcases Outlook.next_of_hasConsensus (o := s.outlook told.chainTaskId) ha.isOpen ha.inTime
        ha.agreed with ⟨-, hnext⟩ | ⟨-, hnext⟩
      · exact absurd (hnone.symm.trans hnext) (by simp)
      · exact absurd (hnone.symm.trans hnext) (by simp)
    · exact hreached

/-- The contributions of the unreported pool are due, with the whole day still to come. -/
def belated : Pool := unreported.after [.setClock ⟨5400, 0, by decide⟩]

/-- The deadline for contributions has passed, and still the task comes to the consensus and is not
timed out. -/
theorem consensus_acted_upon_belated : belated.Reachable ∧
    hourly.contributionDeadlineReached belated.now = true ∧
    ∃ told q calls applied s u new,
      belated.attempt (missedNotifications 7 "0xa") = (.ok [told], q) ∧
      told.chainTaskId = "0x1" ∧ told.instruction = .reveal ∧
      q.Drains calls applied s ∧ s.queue.size = 0 ∧ s.store.task? "0x1" = some u ∧
      u.statuses = hourly.statuses ++ new ∧ .contributionTimeout ∉ new ∧
      .consensusReached ∈ new := by
  have hreachable : belated.Reachable := isNew_blank.reachable.after _ |>.after _
  obtain ⟨ns, q, hanswer, ⟨calls, applied, s, hs, hempty⟩, h⟩ :=
    consensus_acted_upon hreachable 7 "0xa"
  have hns : (belated.notices "0xa" 7 (belated.tasksOf "0xa")).map
      (fun n => (n.chainTaskId, n.instruction)) = [("0x1", .reveal)] := by decide
  rw [← eq_notices_of_attempt hanswer] at hns
  obtain ⟨told, rfl, htold⟩ := List.map_eq_singleton_iff.1 hns
  have hid : told.chainTaskId = "0x1" := congrArg Prod.fst htold
  have hreveal : told.instruction = .reveal := congrArg Prod.snd htold
  obtain ⟨u, new, hu, hstatuses, huntimed, -, hreached⟩ :=
    h told List.mem_cons_self hreveal (by rw [hid]; decide) hourly (by rw [hid]; rfl) rfl rfl
      calls applied s hs
  exact ⟨hreachable, by decide, told, q, calls, applied, s, u, new, hanswer, hid, hreveal, hs,
    hempty, hid ▸ hu, hstatuses, huntimed, hreached hempty⟩

end Pool

end ComputePool
