import ComputePool.Proofs.FirstFit
import ComputePool.Proofs.Queue.Order
import ComputePool.Proofs.WellKept

/-!
# All the open tasks, one after the other

Who is shown the best open task, and then the best of those that it was not shown yet, and so on, is
shown every open task once and then none (`Store.Enumerates`). What is shown is an arrangement of
the open tasks (`Store.Enumerates.perm`), and it is in order (`Store.Enumerates.sorted`). That
leaves a choice only among tasks of one priority (`Task.map_priority_eq`), so it matters no further
in which order the store happens to list its tasks.
-/

namespace ComputePool

namespace Task

/-- What the place of a task depends on: how far on it is, and when its contributions are due. -/
def priority (t : Task) : TaskStatus × Instant := (t.status, t.contributionDeadline)

/-- A task of the first priority may be handed out before one of the second: it is further on, or
as far and not due later. -/
def MayPrecede (p q : TaskStatus × Instant) : Prop := q.1 < p.1 ∨ p.1 = q.1 ∧ p.2 ≤ q.2

/-- Priorities that may precede each other are equal. -/
theorem MayPrecede.antisymm {p q : TaskStatus × Instant} (hpq : MayPrecede p q)
    (hqp : MayPrecede q p) : p = q := by
  unfold MayPrecede at hpq hqp
  rw [TaskStatus.lt_iff_rank, TaskStatus.eq_iff_rank, Instant.le_def] at hpq hqp
  rw [Prod.ext_iff, TaskStatus.eq_iff_rank, Instant.eq_iff]
  omega

variable {a b : Task} {l l' : List Task}

/-- A task may come first unless the other one precedes it. -/
theorem mayPrecede_of_not_precedes (h : ¬ b.precedes a) : MayPrecede a.priority b.priority := by
  rw [precedes_iff, Instant.lt_def] at h
  unfold MayPrecede priority
  dsimp only
  rw [TaskStatus.lt_iff_rank, TaskStatus.eq_iff_rank, Instant.le_def]
  omega

/-- Two arrangements of the same tasks that are both in order differ only among tasks of one
priority. -/
theorem map_priority_eq (h : l.Perm l') (hl : (l.map priority).Pairwise MayPrecede)
    (hl' : (l'.map priority).Pairwise MayPrecede) : l.map priority = l'.map priority :=
  (h.map priority).eq_of_pairwise (fun _ _ _ _ hpq hqp => hpq.antisymm hqp) hl hl'

/-- Where each priority occurs once, there is one arrangement in order. -/
theorem eq_of_nodup_priority (h : l.Perm l') (hl : (l.map priority).Pairwise MayPrecede)
    (hl' : (l'.map priority).Pairwise MayPrecede) (honce : (l.map priority).Nodup) : l = l' := by
  refine h.eq_of_pairwise (fun a b ha hb hab hba => ?_) (List.pairwise_map.1 hl)
    (List.pairwise_map.1 hl')
  exact List.inj_on_of_nodup_map honce ha (h.mem_iff.2 hb) (hab.antisymm hba)

/-- Of tasks with different ids, one is the first and the others are those with another id. -/
theorem perm_cons_filter (h : (l.map (·.chainTaskId)).Nodup) (ha : a ∈ l) :
    l.Perm (a :: l.filter fun b => b.chainTaskId != a.chainTaskId) := by
  have herase : l.erase a = l.filter fun b => b.chainTaskId != a.chainTaskId := by
    rw [(List.Nodup.of_map _ h).erase_eq_filter]
    refine List.filter_congr fun b hb => ?_
    rw [Bool.eq_iff_iff, bne_iff_ne, bne_iff_ne]
    exact not_congr ⟨congrArg _, List.inj_on_of_nodup_map h hb ha⟩
  rw [← herase]
  exact List.perm_cons_erase ha

end Task

namespace Store

/-- Call after call shows these tasks, each of them excluded from then on, until none is left. -/
inductive Enumerates (s : Store) (excludeTee : Bool) :
    (excluded : List String) → List Task → Prop where
  | nothing {excluded : List String} (best : s.bestOpenTask? excludeTee excluded = none) :
      Enumerates s excludeTee excluded []
  | next {excluded : List String} {t : Task} {ts : List Task}
      (best : s.bestOpenTask? excludeTee excluded = some t)
      (rest : Enumerates s excludeTee (excluded ++ [t.chainTaskId]) ts) :
      Enumerates s excludeTee excluded (t :: ts)

variable {s s' : Store} {excludeTee : Bool} {excluded : List String} {t : Task} {ts ts' : List Task}

/-- The calls come to an end: each task that is shown leaves fewer to be shown. -/
theorem exists_enumerates (s : Store) (excludeTee : Bool) (excluded : List String) :
    ∃ ts, s.Enumerates excludeTee excluded ts := by
  -- by induction on the number of tasks that are left
  generalize hn : (s.openTasks excludeTee excluded).length = n
  induction n using Nat.strongRecOn generalizing excluded with
  | ind n ih =>
    cases hbest : s.bestOpenTask? excludeTee excluded with
    | none => exact ⟨[], .nothing hbest⟩
    | some t =>
      have hfewer := length_openTasks_append_lt hbest
      rw [hn] at hfewer
      obtain ⟨ts, hts⟩ := ih _ hfewer _ rfl
      exact ⟨t :: ts, .next hbest hts⟩

namespace Enumerates

/-- What is shown call after call is determined. -/
theorem unique (h : s.Enumerates excludeTee excluded ts)
    (h' : s.Enumerates excludeTee excluded ts') : ts' = ts := by
  induction h generalizing ts' with
  | nothing best =>
    cases h' with
    | nothing => rfl
    | next best' => exact absurd (best.symm.trans best') (by simp)
  | next best rest ih =>
    cases h' with
    | nothing best' => exact absurd (best'.symm.trans best) (by simp)
    | next best' rest' =>
      obtain rfl := Option.some.inj (best.symm.trans best')
      rw [ih rest']

/-- What is shown are the open tasks, each once. -/
theorem perm (h : s.Enumerates excludeTee excluded ts)
    (hids : (s.tasks.values.map (·.chainTaskId)).Nodup) :
    ts.Perm (s.openTasks excludeTee excluded) := by
  induction h with
  | nothing best => rw [Task.best?_eq_none.1 best]
  | @next excluded t ts best rest ih =>
    have hopen : ((s.openTasks excludeTee excluded).map (·.chainTaskId)).Nodup :=
      hids.sublist (List.filter_sublist.map _)
    rw [openTasks_append] at ih
    exact (ih.cons t).trans (Task.perm_cons_filter hopen (Task.best?_mem best)).symm

/-- No task is shown before one that precedes it. -/
theorem sorted (h : s.Enumerates excludeTee excluded ts)
    (hids : (s.tasks.values.map (·.chainTaskId)).Nodup) :
    (ts.map Task.priority).Pairwise Task.MayPrecede := by
  induction h with
  | nothing => exact .nil
  | @next excluded t ts best rest ih =>
    refine List.pairwise_cons.2 ⟨fun q hq => ?_, ih⟩
    obtain ⟨u, hu, rfl⟩ := List.mem_map.1 hq
    -- what is shown later could have been shown now
    have hleft := (rest.perm hids).mem_iff.1 hu
    rw [openTasks_append] at hleft
    exact Task.mayPrecede_of_not_precedes
      (Task.not_precedes_best? best u (List.mem_of_mem_filter hleft))

end Enumerates

/-- In a store every task has an id of its own. -/
theorem Keyed.nodup_ids (h : s.Keyed) : (s.tasks.values.map (·.chainTaskId)).Nodup := by
  have hids : s.tasks.values.map (·.chainTaskId) = s.tasks.keys := by
    unfold Table.values Table.keys
    rw [List.map_map]
    exact List.map_congr_left fun e he => h.task (Table.findIn_of_mem h.distinct he)
  rw [hids]
  exact h.distinct

/-- Asking for the best open task again and again, each time without those that were shown, shows
all the open tasks that were not excluded at the start, and then none. Each of them is shown once,
the one that is further on first, and of those equally far the one that is due earlier. A store that
lists the same tasks in another order shows them in the same order, but perhaps for tasks of one
priority. -/
theorem open_tasks_enumerated (h : s.Keyed) (excludeTee : Bool) (excluded : List String) :
    ∃ ts, s.Enumerates excludeTee excluded ts ∧
      (∀ ts', s.Enumerates excludeTee excluded ts' → ts' = ts) ∧
      (∀ t, t ∈ ts ↔ s.task? t.chainTaskId = some t ∧
        (t.status = .initialized ∨ t.status = .running) ∧
        (excludeTee = true → t.tee = false) ∧ t.chainTaskId ∉ excluded) ∧
      (ts.map (·.chainTaskId)).Nodup ∧
      (ts.Pairwise fun a b => b.status < a.status ∨
        a.status = b.status ∧ a.contributionDeadline ≤ b.contributionDeadline) ∧
      ∀ s' : Store, s'.tasks.entries.Perm s.tasks.entries →
        ∃ ts', s'.Enumerates excludeTee excluded ts' ∧ ts'.Perm ts ∧
          ts'.map Task.priority = ts.map Task.priority ∧
          ((ts.map Task.priority).Nodup → ts' = ts) := by
  obtain ⟨ts, hts⟩ := exists_enumerates s excludeTee excluded
  have hperm := hts.perm h.nodup_ids
  have hsorted := hts.sorted h.nodup_ids
  refine ⟨ts, hts, fun ts' => hts.unique, fun t => ?_, ?_, List.pairwise_map.1 hsorted,
    fun s' hs' => ?_⟩
  · rw [hperm.mem_iff, h.mem_openTasks_iff]
  · exact ((hperm.map _).nodup_iff).2 (h.nodup_ids.sublist (List.filter_sublist.map _))
  · obtain ⟨ts', hts'⟩ := exists_enumerates s' excludeTee excluded
    have hvalues : s'.tasks.values.Perm s.tasks.values := hs'.map _
    have hids : (s'.tasks.values.map (·.chainTaskId)).Nodup :=
      ((hvalues.map _).nodup_iff).2 h.nodup_ids
    have hsame : ts'.Perm ts :=
      ((hts'.perm hids).trans (hvalues.filter _)).trans hperm.symm
    have hsorted' := hts'.sorted hids
    exact ⟨ts', hts', hsame, Task.map_priority_eq hsame hsorted' hsorted, fun honce =>
      (Task.eq_of_nodup_priority hsame.symm hsorted hsorted' honce).symm⟩

end Store

namespace Pool

/-- A pool with five open tasks, one of them for enclaves only, and one that is completed. -/
def assorted : Pool := blank.after [
  .insertTask (plainIn "0x1" .initialized),
  .insertTask (plainIn "0x2" .completed),
  .insertTask { plainIn "0x3" .running with tee := true },
  .insertTask { plainIn "0x4" .initialized with contributionDeadline := .epoch },
  .insertTask (plainIn "0x5" .running),
  .insertTask (plainIn "0x6" .running)]

end Pool

/-- Without the tasks for enclaves and the excluded one there are three to show, and a table in
reverse order shows the same. -/
theorem Store.open_tasks_enumerated_assorted : Pool.assorted.store.Keyed ∧
    ∃ ts, Pool.assorted.store.Enumerates true ["0x6"] ts ∧
      ts.map (·.chainTaskId) = ["0x5", "0x4", "0x1"] ∧
      ∀ s' : Store, s'.tasks.entries = Pool.assorted.store.tasks.entries.reverse →
        s'.Enumerates true ["0x6"] ts := by
  have hkeyed : Pool.assorted.store.Keyed := (Pool.isNew_blank.reachable.after _).wellKept.keyed
  obtain ⟨ts, hts, hunique, -, -, -, horder⟩ := open_tasks_enumerated hkeyed true ["0x6"]
  -- what is shown can be run, and there is nothing else to be shown
  obtain rfl := hunique _ (.next rfl (.next rfl (.next rfl (.nothing rfl))))
  refine ⟨hkeyed, _, hts, rfl, fun s' hs' => ?_⟩
  obtain ⟨ts', hts', -, -, hsame⟩ := horder s' (hs' ▸ List.reverse_perm _)
  rw [← hsame (by decide)]
  exact hts'

end ComputePool
