import ComputePool.Proofs.Draining.Confluence

/-!
# One task in a drain

To the task of an id a call does one of two things (`Pool.OnCall`): it leaves it and its list alone,
or it makes the move that is due. Clock and chain stand still meanwhile. So what holds of one task
in every drain is shown by a case for the one and a case for the other, and
`Pool.Drains.keeps` puts the calls together.

A worker only loses slots in a drain, and loses them with the move of a task that it takes part in
(`Pool.OnCall.moved`, `Pool.computing_call`).
-/

namespace ComputePool.Pool

variable {p q : Pool} {r : Request} {id wallet : String} {calls applied : Nat}

/-- What a call does to the task of an id. -/
inductive OnCall (p : Pool) (r : Request) (id : String) : Prop where
  | kept (task : (p.call r).store.task? id = p.store.task? id)
      (list : (p.call r).store.list? id = p.store.list? id)
  /-- The task makes the move that is due, and its participants are freed if it is over. -/
  | moved (t : Task) (s : TaskStatus) (served : r.chainTaskId = id)
      (stored : p.store.task? id = some t) (due : (p.outlook id).next t = some s)
      (task : (p.call r).store.task? id = some ((p.outlook id).moved s t).saved)
      (list : (p.call r).store.list? id = (p.outlook id).listAfter s t)
      (worker : ∀ wallet, (p.call r).registry.worker? wallet =
        if s.freesWorkers ∧ (p.store.list? id).any (·.hasWorker wallet) then
          (p.registry.worker? wallet).map (·.releaseTask id)
        else p.registry.worker? wallet)

theorem onCall (h : p.WellKept) (r : Request) (id : String) : p.OnCall r id := by
  cases hdue : p.due? r.chainTaskId with
  | none =>
    have hcall := (call_idle h hdue).1
    exact .kept (congrArg (·.store.task? id) hcall) (congrArg (·.store.list? id) hcall)
  | some move =>
    obtain ⟨t, s⟩ := move
    obtain ⟨hserved, ht, hs⟩ := due_task h hdue
    have htask := task?_call_moving h hdue id
    have hlist := list?_call_moving h hdue id
    by_cases hid : t.chainTaskId = id
    · subst hid
      refine .moved t s hserved.symm ht hs (htask.trans (if_pos rfl)) (hlist.trans (if_pos rfl))
        fun wallet => ?_
      rw [worker?_call_moving h hdue, Outlook.hasWorker_listAfter]
      rfl
    · exact .kept (htask.trans (if_neg hid)) (hlist.trans (if_neg hid))

/-- A call gives no worker a slot. -/
theorem computing_call (h : p.WellKept) (r : Request) {w : Worker}
    (hw : (p.call r).registry.worker? wallet = some w) :
    ∃ w', p.registry.worker? wallet = some w' ∧ w.computing ⊆ w'.computing := by
  cases hdue : p.due? r.chainTaskId with
  | none =>
    rw [(call_idle h hdue).1] at hw
    exact ⟨w, hw, List.Subset.refl _⟩
  | some move =>
    rw [worker?_call_moving h hdue] at hw
    split at hw
    · obtain ⟨w', hw', rfl⟩ := Option.map_eq_some_iff.1 hw
      exact ⟨w', hw', fun i hi => (Worker.mem_computing_releaseTask.1 hi).1⟩
    · exact ⟨w, hw, List.Subset.refl _⟩

/-- A call changes nobody's part in a task. -/
theorem hasWorker_call (h : p.WellKept) (r : Request) (id wallet : String) :
    ((p.call r).store.list? id).any (·.hasWorker wallet) =
      (p.store.list? id).any (·.hasWorker wallet) := by
  cases onCall h r id with
  | kept task list => rw [list]
  | moved t s served stored due task list worker =>
    rw [list, Outlook.hasWorker_listAfter]
    rfl

namespace Drains

/-- What every call keeps is kept by a drain. -/
theorem keeps {P : Pool → Prop} (h : p.Drains calls applied q) (hp : p.WellKept)
    (hcall : ∀ q r, q.WellKept → P q → P (q.call r)) (hstart : P p) : P q := by
  induction h with
  | start => exact hstart
  | @call calls applied q r before _ ih => exact hcall q r (before.wellKept hp) ih

/-- Nobody's part in a task changes in a drain. -/
theorem hasWorker (h : p.Drains calls applied q) (hp : p.WellKept) (id wallet : String) :
    (q.store.list? id).any (·.hasWorker wallet) = (p.store.list? id).any (·.hasWorker wallet) :=
  h.keeps (P := fun q => (q.store.list? id).any (·.hasWorker wallet) =
      (p.store.list? id).any (·.hasWorker wallet)) hp
    (fun _ r hq h => (hasWorker_call hq r id wallet).trans h) rfl

/-- Once the queue is empty no move is due of a task that was queued. -/
theorem next_eq_none (h : p.Drains calls applied q) (hp : p.WellKept) (hid : id ∈ p.queue.ids)
    (hempty : q.queue.size = 0) {t : Task} (ht : q.store.task? id = some t) :
    (q.outlook id).next t = none := by
  have hdue := h.not_due hp hid (UpdateQueue.notMem_ids_of_empty hempty id)
  unfold due? at hdue
  rw [ht] at hdue
  exact Option.map_eq_none_iff.1 hdue

/-- Draining queues nothing new. -/
theorem ids_subset (h : p.Drains calls applied q) (hp : p.WellKept) :
    q.queue.ids ⊆ p.queue.ids := by
  induction h with
  | start => exact List.Subset.refl _
  | call before queued ih =>
    exact fun id hid => ih ((mem_ids_call (before.wellKept hp) queued id).1 hid).1

/-- A task that was not queued is as it was, and so is its list. -/
theorem unchanged (h : p.Drains calls applied q) (hp : p.WellKept) (hid : id ∉ p.queue.ids) :
    q.store.task? id = p.store.task? id ∧ q.store.list? id = p.store.list? id := by
  induction h with
  | start => exact ⟨rfl, rfl⟩
  | @call calls applied q r before queued ih =>
    cases onCall (before.wellKept hp) r id with
    | kept task list => exact ⟨task.trans ih.1, list.trans ih.2⟩
    | moved t s served stored due task list worker =>
      have hqueued := before.ids_subset hp (UpdateQueue.mem_ids_iff.2 ⟨r, queued, rfl⟩)
      exact absurd (served ▸ hqueued) hid

end Drains

end ComputePool.Pool
