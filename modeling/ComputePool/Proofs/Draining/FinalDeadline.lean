import ComputePool.Proofs.Detection
import ComputePool.Proofs.Draining.Following

/-!
# Final deadlines

The detector of final deadlines publishes every task that is overdue, whatever its status, unless
the task is queued anyway (`Pool.mem_ids_detected`). Of an overdue task no move is due but the one
to failed, which frees the participants, and from there nothing leads on. So a task that is overdue
stays as it is before its turn and is discarded after it (`Pool.Discarded.call`), and its turn comes
before the queue is empty.
-/

namespace ComputePool

/-- Who takes part in a task has a replicate in its list. -/
theorem Store.isSome_replicate? (id wallet : String) (s : Store) :
    (s.replicate? id wallet).isSome = (s.list? id).any (·.hasWorker wallet) := by
  unfold replicate?
  cases s.list? id <;> rfl

/-- An overdue task fails, and makes no other move. -/
theorem Outlook.next_of_isOverdue {o : Outlook} {t : Task} (h : o.isOverdue t = true) :
    o.next t = some .failed := if_pos h

/-- The detector looks at all tasks that are not over. -/
theorem TaskStatus.mem_unfinished {s : TaskStatus} :
    unfinished.contains s = true ↔ s.isTerminal = false := by
  cases s <;> decide

namespace Pool

variable {p q : Pool} {t : Task} {id : String} {calls applied : Nat}

/-- The task is stored, and past its final deadline without being over. -/
structure Overdue (p : Pool) (id : String) (t : Task) : Prop where
  stored : p.store.task? id = some t
  unfinished : t.status.isTerminal = false
  late : t.finalDeadlineReached p.now = true

/-- The task failed, and no worker that takes part in it computes it. -/
structure Discarded (p : Pool) (id : String) : Prop where
  failed : ∃ t, p.store.task? id = some t ∧ t.status = .failed
  freed : ∀ wallet w, p.registry.worker? wallet = some w →
    (p.store.list? id).any (·.hasWorker wallet) = true → id ∉ w.computing

/-! ## What is queued -/

/-- The move of an overdue task is to fail. -/
theorem Overdue.next (h : p.Overdue id t) : (p.outlook id).next t = some .failed := by
  refine Outlook.next_of_isOverdue ?_
  unfold Outlook.isOverdue
  rw [h.unfinished]
  exact h.late

/-- The detector finds just the overdue tasks. -/
theorem mem_targets_finalDeadline (hk : p.store.Keyed) :
    (∃ t ∈ Detector.finalDeadline.targets p, t.chainTaskId = id) ↔ ∃ t, p.Overdue id t := by
  unfold Detector.targets Store.tasksIn
  constructor
  · rintro ⟨t, ht, rfl⟩
    rw [List.mem_filter, List.mem_filter, TaskStatus.mem_unfinished] at ht
    exact ⟨t, hk.task?_of_mem ht.1.1, ht.1.2, ht.2⟩
  · rintro ⟨t, h⟩
    refine ⟨t, ?_, hk.task h.stored⟩
    rw [List.mem_filter, List.mem_filter, TaskStatus.mem_unfinished]
    exact ⟨⟨Table.mem_values_of_find? h.stored, h.unfinished⟩, h.late⟩

/-- Queued after the detector ran is what was queued before, and every overdue task with an id that
is not empty. -/
theorem mem_ids_detected (hp : p.WellKept) :
    id ∈ (p.published (Detector.finalDeadline.targets p)).queue.ids ↔
      id ∈ p.queue.ids ∨ id ≠ "" ∧ ∃ t, p.Overdue id t := by
  rw [mem_ids_published hp, mem_targets_finalDeadline hp.keyed]
  refine or_congr_right ⟨fun h => ⟨h.2.1, h.1⟩, fun h => ⟨h.2, h.1, ?_⟩⟩
  obtain ⟨t, ht⟩ := h.2
  rw [ht.stored]
  rfl

/-! ## In the drain -/

/-- What is discarded stays so. -/
theorem Discarded.call (h : p.Discarded id) (hp : p.WellKept) (r : Request) :
    (p.call r).Discarded id := by
  obtain ⟨t, ht, hfailed⟩ := h.failed
  refine ⟨⟨t, ?_, hfailed⟩, fun wallet w hw hpart hin => ?_⟩
  · cases onCall hp r id with
    | kept task list => exact task.trans ht
    | moved t' s served stored due task list worker =>
      obtain rfl := Option.some.inj (stored.symm.trans ht)
      have hnone := (p.outlook id).next_of_isTerminal (t := t') (by rw [hfailed]; rfl)
      exact absurd (due.symm.trans hnone) (by simp)
  · obtain ⟨w', hw', hsub⟩ := computing_call hp r hw
    rw [hasWorker_call hp] at hpart
    exact h.freed wallet w' hw' hpart (hsub hin)

/-- A call leaves an overdue task as it is, or discards it. -/
theorem Overdue.call (h : p.Overdue id t) (hp : p.WellKept) (r : Request) :
    (p.call r).Overdue id t ∨ (p.call r).Discarded id := by
  cases onCall hp r id with
  | kept task list =>
    refine .inl ⟨task.trans h.stored, h.unfinished, ?_⟩
    rw [(now_call hp r).1]
    exact h.late
  | moved t' s served stored due task list worker =>
    obtain rfl := Option.some.inj (stored.symm.trans h.stored)
    obtain rfl := Option.some.inj (due.symm.trans h.next)
    refine .inr ⟨⟨_, task, rfl⟩, fun wallet w hw hpart hin => ?_⟩
    rw [hasWorker_call hp] at hpart
    rw [worker wallet, if_pos ⟨rfl, hpart⟩] at hw
    obtain ⟨w', -, rfl⟩ := Option.map_eq_some_iff.1 hw
    exact (Worker.mem_computing_releaseTask.1 hin).2 rfl

/-- A drain that comes to its end discards what is overdue and queued. -/
theorem Overdue.drains (h : p.Overdue id t) (hp : p.WellKept) (hqueued : id ∈ p.queue.ids)
    (hq : p.Drains calls applied q) (hempty : q.queue.size = 0) : q.Discarded id := by
  have hend : q.Overdue id t ∨ q.Discarded id := by
    refine hq.keeps (P := fun q => q.Overdue id t ∨ q.Discarded id) hp ?_ (.inl h)
    rintro q r hq (hdue | hover)
    · exact hdue.call hq r
    · exact .inr (hover.call hq r)
  refine hend.resolve_left fun hdue => ?_
  have hnone := hq.next_eq_none hp hqueued hempty hdue.stored
  exact absurd (hnone.symm.trans hdue.next) (by simp)

/-- A drain leaves alone what is over. -/
theorem Drains.task?_of_isTerminal (h : p.Drains calls applied q) (hp : p.WellKept)
    (ht : p.store.task? id = some t) (hover : t.status.isTerminal = true) :
    q.store.task? id = some t := by
  refine h.keeps (P := fun q => q.store.task? id = some t) hp (fun q r hq hstored => ?_) ht
  cases onCall hq r id with
  | kept task list => exact task.trans hstored
  | moved t' s served stored due task list worker =>
    obtain rfl := Option.some.inj (stored.symm.trans hstored)
    exact absurd (due.symm.trans ((q.outlook id).next_of_isTerminal hover)) (by simp)

/-- No task outlives its final deadline. The detector of final deadlines runs through, and the
queue can be drained after it; whatever the order of the calls, at the end every task past its
final deadline is over. One that was over is as it was. Any other failed, and no registered worker
with a replicate of it computes it. Tasks that were neither queued nor past their final deadline are
as they were, with their lists. -/
theorem final_deadlines_enforced (hp : p.Reachable) :
    ∃ n q, p.attempt (detect .finalDeadline) = (.ok n, q) ∧
      (∃ calls applied s, q.Drains calls applied s ∧ s.queue.size = 0) ∧
      ∀ calls applied s, q.Drains calls applied s → s.queue.size = 0 →
        (∀ id t, id ≠ "" → p.store.task? id = some t → t.finalDeadlineReached p.now = true →
          ∃ u, s.store.task? id = some u ∧ u.status.isTerminal = true ∧
            (t.status.isTerminal = true → u = t) ∧
            (t.status.isTerminal = false → u.status = .failed ∧
              ∀ wallet w, s.registry.worker? wallet = some w →
                (s.store.replicate? id wallet).isSome = true → id ∉ w.computing)) ∧
        ∀ id, id ∉ p.queue.ids →
          (∀ t, p.store.task? id = some t → t.finalDeadlineReached p.now = false) →
          s.store.task? id = p.store.task? id ∧ s.store.list? id = p.store.list? id := by
  obtain ⟨n, hn⟩ := attempt_detect .finalDeadline p
  have hleads := p.leads_published (Detector.finalDeadline.targets p)
  set q := p.published (Detector.finalDeadline.targets p)
  have hqueued : ∀ id, id ∈ q.queue.ids ↔
      id ∈ p.queue.ids ∨ id ≠ "" ∧ ∃ t, p.Overdue id t := fun _ => mem_ids_detected hp.wellKept
  have hq : q.WellKept := hp.wellKept.leads hleads
  have hstore : q.store = p.store := congrArg (·.store) hleads.publishes_eq
  have hnow : q.now = p.now := congrArg (·.now) hleads.publishes_eq
  refine ⟨n, q, hn, Drains.complete hq, fun calls applied s hs hempty => ⟨?_, ?_⟩⟩
  · intro id t hnamed ht hlate
    cases hover : t.status.isTerminal with
    | true =>
      have hend := hs.task?_of_isTerminal hq (hstore ▸ ht) hover
      exact ⟨t, hend, hover, fun _ => rfl, fun h => absurd h (by simp)⟩
    | false =>
      have hdue : q.Overdue id t := ⟨hstore ▸ ht, hover, hnow ▸ hlate⟩
      have hin : id ∈ q.queue.ids := (hqueued id).2 (.inr ⟨hnamed, t, ht, hover, hlate⟩)
      have hend := hdue.drains hq hin hs hempty
      obtain ⟨u, hu, hfailed⟩ := hend.failed
      refine ⟨u, hu, by rw [hfailed]; rfl, fun h => absurd h (by simp), fun _ => ⟨hfailed, ?_⟩⟩
      intro wallet w hw hpart
      rw [Store.isSome_replicate?] at hpart
      exact hend.freed wallet w hw hpart
  · intro id hout htime
    have hout' : id ∉ q.queue.ids := by
      rw [hqueued, not_or]
      refine ⟨hout, fun h => ?_⟩
      obtain ⟨t, ht⟩ := h.2
      exact absurd ((htime t ht.stored).symm.trans ht.late) (by simp)
    rw [← hstore]
    exact hs.unchanged hq hout'

/-- A worker computes a task that ran out of time a day ago; another task has a day left. -/
def overrun : Pool := blank.after [
  .insertTask ((Task.plain "0x1").changeStatus .epoch .running),
  .insertTask { Task.plain "0x2" with finalDeadline := ⟨259200, 0, by decide⟩ },
  .createList "0x1",
  .addReplicate (.empty "0x1") "0xa",
  .addWorker (.fresh .epoch "0xa" 1),
  .addWork "0xa" "0x1",
  .setClock ⟨172800, 0, by decide⟩]

/-- The late task fails and its worker is free again; the other task stays as it is. -/
theorem final_deadlines_enforced_overrun : overrun.Reachable ∧
    ((overrun.registry.worker? "0xa").map (·.computing)) = some ["0x1"] ∧
    ∃ n q calls applied s u, overrun.attempt (detect .finalDeadline) = (.ok n, q) ∧
      q.Drains calls applied s ∧ s.queue.size = 0 ∧
      s.store.task? "0x1" = some u ∧ u.status = .failed ∧
      (∀ w, s.registry.worker? "0xa" = some w → "0x1" ∉ w.computing) ∧
      s.store.task? "0x2" = overrun.store.task? "0x2" := by
  have hreachable : overrun.Reachable := isNew_blank.reachable.after _
  obtain ⟨n, q, hn, ⟨calls, applied, s, hs, hempty⟩, h⟩ := final_deadlines_enforced hreachable
  obtain ⟨hlate, htime⟩ := h calls applied s hs hempty
  obtain ⟨u, hu, -, -, hfailed⟩ := hlate "0x1" _ (by decide) rfl rfl
  obtain ⟨hfailed, hfreed⟩ := hfailed rfl
  refine ⟨hreachable, by decide, n, q, calls, applied, s, u, hn, hs, hempty, hu, hfailed, ?_, ?_⟩
  · -- the detector and the drain leave the replicate where it is
    obtain ⟨m, hm⟩ := attempt_detect .finalDeadline overrun
    obtain rfl : overrun.published (Detector.finalDeadline.targets overrun) = q :=
      congrArg Prod.snd (hm.symm.trans hn)
    have hleads := overrun.leads_published (Detector.finalDeadline.targets overrun)
    refine fun w hw => hfreed "0xa" w hw ?_
    rw [Store.isSome_replicate?, hs.hasWorker (hreachable.wellKept.leads hleads),
      hleads.publishes_eq]
    rfl
  · refine (htime "0x2" (by decide) fun t ht => ?_).1
    obtain rfl := Option.some.inj ht
    rfl

end Pool

end ComputePool
