import ComputePool.Proofs.Records

/-!
# The open tasks, the best first

Who asks for work is shown the open tasks one after the other, each time the best of those that it
was not shown yet. `Task.precedes` is a strict order in which tasks of one status and one deadline
are equal, so the best of a list is one that no other precedes (`Task.not_precedes_best?`). Every
task that is shown leaves fewer to be shown (`Store.length_openTasks_append_lt`).
-/

namespace ComputePool

namespace Task

/-! ## The order -/

/-- A task that is further on goes first, and of two that are as far on the one whose contributions
are due earlier. -/
theorem precedes_iff {a b : Task} : a.precedes b = true ↔
    b.status.rank < a.status.rank ∨
      a.status.rank = b.status.rank ∧ a.contributionDeadline < b.contributionDeadline := by
  unfold precedes
  rw [Bool.or_eq_true, Bool.and_eq_true, decide_eq_true_iff, decide_eq_true_iff, beq_iff_eq,
    TaskStatus.lt_iff_rank, TaskStatus.eq_iff_rank]

/-- Of three tasks, if the first does not precede the second, nor the second the third, then the
first does not precede the third. -/
theorem not_precedes_trans {a b c : Task} (hab : ¬ a.precedes b) (hbc : ¬ b.precedes c) :
    ¬ a.precedes c := by
  rw [precedes_iff] at hab hbc ⊢
  have hlt : ∀ x y : Instant, x < y ↔ x.second < y.second ∨ x.second = y.second ∧ x.nano < y.nano :=
    fun _ _ => Iff.rfl
  rw [hlt] at hab hbc ⊢
  omega

/-- Two tasks do not precede each other. -/
theorem precedes_asymm {a b : Task} (h : a.precedes b) : ¬ b.precedes a := by
  rw [precedes_iff] at h ⊢
  have hlt : ∀ x y : Instant, x < y ↔ x.second < y.second ∨ x.second = y.second ∧ x.nano < y.nano :=
    fun _ _ => Iff.rfl
  rw [hlt] at h ⊢
  omega

theorem not_precedes_self (a : Task) : ¬ a.precedes a := fun h => precedes_asymm h h

/-! ## The best of a list -/

/-- The best of some tasks is one of them. -/
theorem best?_mem {l : List Task} {t : Task} (h : best? l = some t) : t ∈ l := by
  induction l generalizing t with
  | nil => exact absurd h (by simp [best?])
  | cons a rest ih =>
    unfold best? at h
    split at h
    · obtain rfl := Option.some.inj h
      exact List.mem_cons_self
    · next u hu =>
      split at h
      · obtain rfl := Option.some.inj h
        exact List.mem_cons_of_mem a (ih hu)
      · obtain rfl := Option.some.inj h
        exact List.mem_cons_self

/-- Some task is the best, unless there is none. -/
theorem best?_eq_none {l : List Task} : best? l = none ↔ l = [] := by
  cases l with
  | nil => exact iff_of_true rfl rfl
  | cons a rest =>
    refine iff_of_false (fun h => ?_) (List.cons_ne_nil a rest)
    unfold best? at h
    split at h
    · exact absurd h (by simp)
    · split at h
      · exact absurd h (by simp)
      · exact absurd h (by simp)

/-- No task of a list precedes the best one. -/
theorem not_precedes_best? {l : List Task} {t : Task} (h : best? l = some t) :
    ∀ u ∈ l, ¬ u.precedes t := by
  induction l generalizing t with
  | nil => exact fun u hu => absurd hu List.not_mem_nil
  | cons a rest ih =>
    intro u hu
    unfold best? at h
    split at h
    · next hrest =>
      obtain rfl := Option.some.inj h
      rw [best?_eq_none.1 hrest] at hu
      rw [List.mem_singleton.1 hu]
      exact not_precedes_self a
    · next b hb =>
      split at h
      · next hba =>
        -- the best of the rest precedes the first
        obtain rfl := Option.some.inj h
        rcases List.mem_cons.1 hu with rfl | hu
        · exact precedes_asymm hba
        · exact ih hb u hu
      · next hba =>
        obtain rfl := Option.some.inj h
        rcases List.mem_cons.1 hu with rfl | hu
        · exact not_precedes_self u
        · exact not_precedes_trans (ih hb u hu) hba

end Task

namespace Store

variable {s : Store} {excludeTee : Bool} {excluded : List String} {t : Task}

/-- The tasks to choose from are the open ones that are not excluded, without those for enclaves if
so asked. -/
theorem mem_openTasks : t ∈ s.openTasks excludeTee excluded ↔
    t ∈ s.tasks.values ∧ t.status.isOpen = true ∧ (excludeTee && t.tee) = false ∧
      t.chainTaskId ∉ excluded := by
  unfold openTasks
  rw [List.mem_filter, Bool.and_eq_true, Bool.and_eq_true, Bool.not_eq_true', Bool.not_eq_true',
    and_assoc, ← Bool.not_eq_true (excluded.contains _), List.contains_iff_mem]

/-- An excluded id takes its tasks off the open ones. -/
theorem openTasks_append (id : String) :
    s.openTasks excludeTee (excluded ++ [id]) =
      (s.openTasks excludeTee excluded).filter fun t => t.chainTaskId != id := by
  unfold openTasks
  rw [List.filter_filter]
  refine List.filter_congr fun t _ => ?_
  have hcontains : (excluded ++ [id]).contains t.chainTaskId =
      (excluded.contains t.chainTaskId || t.chainTaskId == id) := by
    rw [Bool.eq_iff_iff, Bool.or_eq_true, List.contains_iff_mem, List.contains_iff_mem,
      List.mem_append, List.mem_singleton, beq_iff_eq]
  show _ = (!(t.chainTaskId == id) && _)
  rw [hcontains, Bool.not_or, Bool.and_comm (!(t.chainTaskId == id)), Bool.and_assoc,
    Bool.and_assoc, Bool.and_assoc]

/-- A task that was shown leaves fewer to be shown. -/
theorem length_openTasks_append_lt (h : s.bestOpenTask? excludeTee excluded = some t) :
    (s.openTasks excludeTee (excluded ++ [t.chainTaskId])).length <
      (s.openTasks excludeTee excluded).length := by
  rw [openTasks_append]
  refine List.length_filter_lt_length_iff_exists.2 ⟨t, Task.best?_mem h, ?_⟩
  simp

/-- The tasks among which the best one is chosen, told through the look-up. -/
theorem Keyed.mem_openTasks_iff (h : s.Keyed) : t ∈ s.openTasks excludeTee excluded ↔
    s.task? t.chainTaskId = some t ∧ (t.status = .initialized ∨ t.status = .running) ∧
      (excludeTee = true → t.tee = false) ∧ t.chainTaskId ∉ excluded := by
  have hstored : t ∈ s.tasks.values ↔ s.task? t.chainTaskId = some t :=
    ⟨h.task?_of_mem, Table.mem_values_of_find?⟩
  have hopen : t.status.isOpen = true ↔ t.status = .initialized ∨ t.status = .running := by
    cases t.status <;> decide
  have htee : (excludeTee && t.tee) = false ↔ (excludeTee = true → t.tee = false) := by
    cases excludeTee <;> cases t.tee <;> decide
  rw [mem_openTasks, hstored, hopen, htee]

/-- The best open task is stored and open. -/
theorem Keyed.bestOpenTask? (h : s.Keyed) (ht : s.bestOpenTask? excludeTee excluded = some t) :
    s.task? t.chainTaskId = some t ∧ t.status.isOpen = true := by
  obtain ⟨hmem, hopen, -, -⟩ := mem_openTasks.1 (Task.best?_mem ht)
  exact ⟨h.task?_of_mem hmem, hopen⟩

end Store

end ComputePool
