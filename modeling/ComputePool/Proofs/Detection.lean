import ComputePool.Proofs.Effects
import ComputePool.Proofs.WellKept

/-!
# What a detector does

A detector publishes its targets, one after the other, and does nothing else
(`Pool.attempt_detect`). What it looks at is not touched by a publication, so the targets can be
told beforehand (`Detector.targets`).

A publication only queues a request, and at most one for a task: `Pool.mem_ids_published` says which
tasks are queued after any number of them. What a detector returns is the number of requests that
were added (`Pool.attempt_detect_counted`).
-/

namespace ComputePool

/-- The tasks that a detector publishes, in the order in which it does. -/
def Detector.targets (p : Pool) : Detector → List Task
  | .initializedTask => (p.store.tasksIn [.initializing]).filter fun t =>
    (p.chain.task? t.chainTaskId).any (·.status != .unset)
  | .finalizedTask => (p.store.tasksIn [.finalizing]).filter fun t =>
    (p.chain.task? t.chainTaskId).any (·.status == .completed)
  | .unstartedTransaction => p.store.tasksIn [.resultUploaded] ++ p.store.tasksIn [.received]
  | .finalDeadline => (p.store.tasksIn TaskStatus.unfinished).filter (·.finalDeadlineReached p.now)

namespace Pool

variable {p q : Pool} {id : String}

/-! ## Publications -/

/-- The pool once some tasks were published, one after the other. -/
def published (ts : List Task) (p : Pool) : Pool := p.after (ts.map fun t => .publish t.chainTaskId)

theorem published_append (ts us : List Task) (p : Pool) :
    p.published (ts ++ us) = (p.published ts).published us := by
  unfold published after
  rw [List.map_append, List.foldl_append]

theorem leads_published (ts : List Task) (p : Pool) : p.Leads Step.Publishes (p.published ts) := by
  refine leads_after (fun s hs => ?_) p
  obtain ⟨t, -, rfl⟩ := List.mem_map.1 hs
  trivial

/-- Publications leave everything but the dispatcher. -/
theorem Leads.publishes_eq (h : p.Leads Step.Publishes q) :
    q = { p with dispatcher := q.dispatcher } := by
  refine h.keeps (P := fun q => q = { p with dispatcher := q.dispatcher }) ?_ rfl
  rintro s hs q hq
  cases s with
  | publish id =>
    have hstep := publishRequest_snd id q
    rw [hq] at hstep ⊢
    exact hstep
  | _ => exact hs.elim

/-- One publication queues a stored task with an id that is not empty, and no other. -/
theorem mem_ids_publish (hp : p.WellKept) (i : String) :
    id ∈ (p.after [.publish i]).queue.ids ↔
      id ∈ p.queue.ids ∨ id = i ∧ id ≠ "" ∧ (p.store.task? id).isSome := by
  by_cases habsorbs : p.Absorbs i
  · rw [habsorbs.after_publish hp, iff_self_or]
    rintro ⟨rfl, hnamed, hknown⟩
    rcases habsorbs with hempty | hqueued | hunknown
    · exact absurd hempty hnamed
    · exact hqueued
    · rw [hunknown] at hknown
      exact absurd hknown (by simp)
  · rw [ids_after_publish habsorbs hp, List.mem_append, List.mem_singleton]
    refine or_congr_right ⟨?_, fun h => h.1⟩
    rintro rfl
    unfold Absorbs at habsorbs
    rw [not_or, not_or] at habsorbs
    exact ⟨rfl, habsorbs.1, Option.isSome_iff_ne_none.2 habsorbs.2.2⟩

/-- Queued are the tasks that were, and the published ones that are stored under an id that is not
empty. -/
theorem mem_ids_published (hp : p.WellKept) (ts : List Task) :
    id ∈ (p.published ts).queue.ids ↔
      id ∈ p.queue.ids ∨ (∃ t ∈ ts, t.chainTaskId = id) ∧ id ≠ "" ∧ (p.store.task? id).isSome := by
  induction ts generalizing p with
  | nil => exact (or_iff_left fun h => absurd h.1 (by simp)).symm
  | cons t rest ih =>
    have hleads : p.Leads (fun _ => True) (p.after [.publish t.chainTaskId]) :=
      leads_after (fun _ _ => trivial) p
    have hstore : (p.after [.publish t.chainTaskId]).store = p.store :=
      congrArg (·.store) (publishRequest_snd t.chainTaskId p)
    show id ∈ ((p.after [.publish t.chainTaskId]).published rest).queue.ids ↔ _
    rw [ih (hp.leads hleads), mem_ids_publish hp, hstore, List.exists_mem_cons_iff, or_assoc,
      ← or_and_right, eq_comm]

/-- A publication makes the queue longer by one if it is accepted, and leaves it if it is not. -/
theorem size_after_publish (i : String) (p : Pool) :
    (p.after [.publish i]).queue.size =
      p.queue.size + (p.perform (publishRequest i)).1.toNat := by
  show (p.perform (publishRequest i)).2.queue.size = _
  rw [perform_publishRequest]
  split
  · rfl
  · split
    · rfl
    · split
      · next t _ =>
        rw [queue_offer, offer_fst]
        exact UpdateQueue.size_offer p.now t p.queue
      · rfl

/-! ## A pass -/

/-- The tasks that pass a test are published, if the test only looks at what no publication
touches, and the queue grows by the number that is given. -/
theorem attempt_publishWhere {test : Task → Fallible (StateM Pool) Bool} {f : Task → Bool}
    (htest : ∀ q, p.Leads Step.Publishes q → ∀ t, q.attempt (test t) = (.ok (f t), q))
    (ts : List Task) :
    ∃ n, p.attempt (publishWhere test ts) = (.ok n, p.published (ts.filter f)) ∧
      (p.published (ts.filter f)).queue.size = p.queue.size + n := by
  induction ts generalizing p with
  | nil => exact ⟨0, rfl, rfl⟩
  | cons t rest ih =>
    have hfirst := htest p (.refl p) t
    unfold publishWhere
    rw [attempt_bind_ok hfirst]
    cases hf : f t with
    | false =>
      obtain ⟨n, hn, hsize⟩ := ih htest
      rw [List.filter_cons_of_neg (by simp [hf])]
      refine ⟨n + 0, ?_, hsize⟩
      show p.attempt (publishWhere test rest >>= fun n => pure (n + 0)) = _
      rw [attempt_bind_ok hn]
      rfl
    | true =>
      have hpublish : p.Leads Step.Publishes (p.after [.publish t.chainTaskId]) :=
        p.leads_published [t]
      obtain ⟨n, hn, hsize⟩ := ih fun q hq => htest q (hpublish.trans hq)
      rw [List.filter_cons_of_pos hf]
      refine ⟨n + (p.perform (publishRequest t.chainTaskId)).1.toNat, ?_, ?_⟩
      · have hcall : p.attempt (certain (Publisher.publish t.chainTaskId)) =
            (.ok (p.perform (publishRequest t.chainTaskId)).1, p.after [.publish t.chainTaskId]) :=
          rfl
        rw [if_pos rfl, attempt_bind_ok hcall, attempt_bind_ok hn]
        rfl
      · rw [size_after_publish] at hsize
        exact hsize.trans (by omega)

theorem attempt_publishIn {test : Task → Fallible (StateM Pool) Bool} {f : Task → Bool}
    (htest : ∀ q, p.Leads Step.Publishes q → ∀ t, q.attempt (test t) = (.ok (f t), q))
    (statuses : List TaskStatus) :
    ∃ n, p.attempt (publishIn statuses test) =
        (.ok n, p.published ((p.store.tasksIn statuses).filter f)) ∧
      (p.published ((p.store.tasksIn statuses).filter f)).queue.size = p.queue.size + n := by
  have hfind : p.attempt (stored (Collaborators.findTasks statuses)) =
      (.ok (p.store.tasksIn statuses), p) := rfl
  unfold publishIn
  rw [attempt_bind_ok hfind]
  exact attempt_publishWhere htest _

/-- Without a test all tasks in the statuses are published. -/
theorem attempt_publishIn_all (p : Pool) (statuses : List TaskStatus) :
    ∃ n, p.attempt (publishIn statuses fun _ => pure true) =
        (.ok n, p.published (p.store.tasksIn statuses)) ∧
      (p.published (p.store.tasksIn statuses)).queue.size = p.queue.size + n := by
  have hall := attempt_publishIn (p := p) (f := fun _ => true) (fun _ _ _ => rfl) statuses
  rw [List.filter_true] at hall
  exact hall

/-- A detector never fails, publishes its targets, and tells by how much the queue grew. -/
theorem attempt_detect_counted (d : Detector) (p : Pool) :
    ∃ n, p.attempt (detect d) = (.ok n, p.published (d.targets p)) ∧
      (p.published (d.targets p)).queue.size = p.queue.size + n := by
  have hchain : ∀ (f : ChainTask → Bool) (q : Pool), p.Leads Step.Publishes q → ∀ t,
      q.attempt (chainTaskIs f t) = (.ok ((p.chain.task? t.chainTaskId).any f), q) := by
    intro f q hq t
    rw [hq.publishes_eq]
    rfl
  cases d with
  | initializedTask => exact attempt_publishIn (hchain _) _
  | finalizedTask => exact attempt_publishIn (hchain _) _
  | unstartedTransaction =>
    obtain ⟨n, hn, hsize⟩ := p.attempt_publishIn_all [.resultUploaded]
    obtain ⟨m, hm, hsize'⟩ :=
      (p.published (p.store.tasksIn [.resultUploaded])).attempt_publishIn_all [.received]
    have hstore : (p.published (p.store.tasksIn [.resultUploaded])).store = p.store :=
      congrArg (·.store) (p.leads_published _).publishes_eq
    rw [hstore, ← published_append] at hm hsize'
    unfold detect
    refine ⟨n + m, ?_, hsize'.trans (by rw [hsize, Nat.add_assoc])⟩
    rw [attempt_bind_ok hn, attempt_bind_ok hm]
    rfl
  | finalDeadline =>
    refine attempt_publishIn (f := (·.finalDeadlineReached p.now)) ?_ _
    intro q hq t
    rw [hq.publishes_eq]
    rfl

/-- A detector publishes its targets and counts them in some way. -/
theorem attempt_detect (d : Detector) (p : Pool) :
    ∃ n, p.attempt (detect d) = (.ok n, p.published (d.targets p)) :=
  (attempt_detect_counted d p).imp fun _ h => h.1

end Pool

end ComputePool
