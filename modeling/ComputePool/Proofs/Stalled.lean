import ComputePool.Proofs.Detection
import ComputePool.Proofs.Queue.Ledger

/-!
# Detectors publish the tasks that stand still

What each detector looks for is said here of a single stored task (`Detector.Finds`), without the
queries and filters by which it is found. A pass brings one request for every such task that has a
name and is not queued, made of the task as it is stored, behind the requests that were there
(`Pool.detects_stalled`). The tasks that were found are queued then, so another pass finds nothing
to do.
-/

namespace ComputePool

open UpdateQueue

variable {p q : Pool} {t : Task} {d : Detector}

/-- The task stands still although it could move, by the measure of the detector. -/
def Detector.Finds (p : Pool) (t : Task) : Detector → Prop
  | .initializedTask =>
    t.status = .initializing ∧ ∃ c, p.chain.task? t.chainTaskId = some c ∧ c.status ≠ .unset
  | .finalizedTask =>
    t.status = .finalizing ∧ ∃ c, p.chain.task? t.chainTaskId = some c ∧ c.status = .completed
  | .unstartedTransaction => t.status = .resultUploaded ∨ t.status = .received
  | .finalDeadline => t.status ≠ .completed ∧ t.status ≠ .failed ∧ t.finalDeadline ≤ p.now

/-! ## What is found -/

/-- The tasks of some statuses are stored ones. -/
theorem Store.Keyed.mem_tasksIn {s : Store} (h : s.Keyed) {statuses : List TaskStatus} :
    t ∈ s.tasksIn statuses ↔ s.task? t.chainTaskId = some t ∧ t.status ∈ statuses := by
  unfold Store.tasksIn
  rw [List.mem_filter, List.contains_iff_mem]
  exact and_congr_left fun _ => ⟨h.task?_of_mem, Table.mem_values_of_find?⟩

/-- The statuses that the detector of final deadlines looks through are all but the two last. -/
theorem TaskStatus.mem_unfinished_iff {s : TaskStatus} :
    s ∈ unfinished ↔ s ≠ .completed ∧ s ≠ .failed := by
  cases s <;> decide

/-- The targets of a detector are the stored tasks that stand still. -/
theorem Detector.mem_targets (hk : p.store.Keyed) (d : Detector) :
    t ∈ d.targets p ↔ p.store.task? t.chainTaskId = some t ∧ d.Finds p t := by
  unfold Detector.targets Detector.Finds
  cases d with
  | initializedTask =>
    rw [List.mem_filter, hk.mem_tasksIn, List.mem_singleton, and_assoc, Option.any_eq_true]
    simp
  | finalizedTask =>
    rw [List.mem_filter, hk.mem_tasksIn, List.mem_singleton, and_assoc, Option.any_eq_true]
    simp
  | unstartedTransaction =>
    rw [List.mem_append, hk.mem_tasksIn, hk.mem_tasksIn, List.mem_singleton, List.mem_singleton,
      ← and_or_left]
  | finalDeadline =>
    rw [List.mem_filter, hk.mem_tasksIn, TaskStatus.mem_unfinished_iff, and_assoc, and_assoc]
    exact and_congr_right' (and_congr_right' (and_congr_right' decide_eq_true_iff))

namespace Pool

/-! ## What is added -/

/-- One queue is the other one with some requests behind, each made of the task that is stored. -/
structure Adds (p q : Pool) (added : List Request) : Prop where
  entries : q.queue.entries = p.queue.entries ++ added
  faithful : ∀ r ∈ added, ∃ t, p.store.task? r.chainTaskId = some t ∧ r.status = t.status ∧
    r.deadline = t.contributionDeadline

theorem Adds.nil (h : q.queue = p.queue) : p.Adds q [] where
  entries := by rw [h, List.append_nil]
  faithful r hr := absurd hr List.not_mem_nil

/-- What is added later comes behind what was added before. -/
theorem Adds.append {r : Pool} {added added' : List Request} (h : p.Adds q added)
    (hstore : q.store = p.store) (h' : q.Adds r added') : p.Adds r (added ++ added') where
  entries := by rw [h'.entries, h.entries, List.append_assoc]
  faithful s hs := by
    rcases List.mem_append.1 hs with hs | hs
    · exact h.faithful s hs
    · rw [← hstore]
      exact h'.faithful s hs

/-- The ids that are queued are the old ones and those of the new requests. -/
theorem Adds.ids {added : List Request} (h : p.Adds q added) :
    q.queue.ids = p.queue.ids ++ added.map (·.chainTaskId) := by
  unfold UpdateQueue.ids
  rw [h.entries, List.map_append]

/-- A publication adds the request for the stored task, or nothing. -/
theorem exists_adds_publish (hp : p.WellKept) (i : String) :
    ∃ added, p.Adds (p.after [.publish i]) added := by
  rcases hp.publish_cases i with ⟨habsorbs, -⟩ | ⟨-, t, ht, rfl, hfree, heq⟩
  · exact ⟨[], .nil (congrArg queue (habsorbs.after_publish hp))⟩
  · have hqueue : (p.after [.publish t.chainTaskId]).queue = (p.queue.offer p.now t).2 := by
      show (p.perform (publishRequest t.chainTaskId)).2.queue = _
      rw [heq, queue_offer]
    refine ⟨[p.queue.requestFor p.now t], ?_, fun r hr => ?_⟩
    · rw [hqueue, hp.coherent.offer_eq p.now hfree]
    · obtain rfl := List.mem_singleton.1 hr
      exact ⟨t, ht, rfl, rfl⟩

/-- To publish tasks is to add requests to the queue. -/
theorem exists_adds_published (hp : p.WellKept) (ts : List Task) :
    ∃ added, p.Adds (p.published ts) added := by
  induction ts generalizing p with
  | nil => exact ⟨[], .nil rfl⟩
  | cons t rest ih =>
    have hfirst := p.leads_published [t]
    obtain ⟨added, hadded⟩ := exists_adds_publish hp t.chainTaskId
    obtain ⟨added', hadded'⟩ := ih (hp.leads hfirst)
    exact ⟨added ++ added', hadded.append (congrArg (·.store) hfirst.publishes_eq) hadded'⟩

/-- Tasks that need not be published leave the pool as it is. -/
theorem published_of_absorbs (hp : p.WellKept) {ts : List Task}
    (h : ∀ t ∈ ts, p.Absorbs t.chainTaskId) : p.published ts = p := by
  induction ts with
  | nil => rfl
  | cons t rest ih =>
    obtain ⟨hfirst, hrest⟩ := List.forall_mem_cons.1 h
    show (p.after [.publish t.chainTaskId]).published rest = p
    rw [hfirst.after_publish hp]
    exact ih hrest

/-- What a detector looks at is not touched by a publication. -/
theorem Leads.targets_eq (h : p.Leads Step.Publishes q) (d : Detector) :
    d.targets q = d.targets p := by
  rw [h.publishes_eq]
  cases d <;> rfl

/-- A task that was published, or could not be, need not be published again. -/
theorem absorbs_published (hp : p.WellKept) {ts : List Task} (ht : t ∈ ts) :
    (p.published ts).Absorbs t.chainTaskId := by
  have hstore : (p.published ts).store = p.store :=
    congrArg (·.store) (p.leads_published ts).publishes_eq
  unfold Absorbs
  rw [mem_ids_published hp, hstore]
  by_cases hnamed : t.chainTaskId = ""
  · exact .inl hnamed
  · cases hstored : p.store.task? t.chainTaskId with
    | none => exact .inr (.inr rfl)
    | some u => exact .inr (.inl (.inr ⟨⟨t, ht, rfl⟩, hnamed, rfl⟩))

/-- A pass of a detector runs through and leaves all but the queue: the requests that were queued
are queued still, and behind them stands one request for every task with a name that stands still
and was not queued, with the status and the contribution deadline under which the task is stored.
The number of these requests is what it returns, and another pass right after it adds none. -/
theorem detects_stalled (hp : p.Reachable) (d : Detector) :
    ∃ q added, p.attempt (detect d) = (.ok added.length, q) ∧
      q = { p with dispatcher := q.dispatcher } ∧
      q.queue.entries = p.queue.entries ++ added ∧
      (added.map (·.chainTaskId)).Nodup ∧
      (∀ id, id ∈ added.map (·.chainTaskId) ↔
        id ≠ "" ∧ id ∉ p.queue.ids ∧ ∃ t, p.store.task? id = some t ∧ d.Finds p t) ∧
      (∀ r ∈ added, ∃ t, p.store.task? r.chainTaskId = some t ∧ r.status = t.status ∧
        r.deadline = t.contributionDeadline) ∧
      q.attempt (detect d) = (.ok 0, q) := by
  have hk := hp.wellKept.keyed
  obtain ⟨n, hn, hsize⟩ := attempt_detect_counted d p
  have hleads := p.leads_published (d.targets p)
  obtain ⟨added, hadded⟩ := exists_adds_published hp.wellKept (d.targets p)
  have hqueued : ∀ id, id ∈ (p.published (d.targets p)).queue.ids ↔ _ :=
    fun id => mem_ids_published hp.wellKept (d.targets p)
  have habsorbs : ∀ t ∈ d.targets p, (p.published (d.targets p)).Absorbs t.chainTaskId :=
    fun t ht => absorbs_published hp.wellKept ht
  set q := p.published (d.targets p)
  have hq : q.WellKept := hp.wellKept.leads hleads
  have hdistinct := hq.coherent.distinct
  rw [hadded.ids, List.nodup_append] at hdistinct
  have hlength : n = added.length := by
    have hentries := congrArg List.length hadded.entries
    rw [List.length_append] at hentries
    exact Nat.add_left_cancel (hsize.symm.trans hentries)
  refine ⟨q, added, hlength ▸ hn, hleads.publishes_eq, hadded.entries, hdistinct.2.1, fun id => ?_,
    hadded.faithful, ?_⟩
  · have hmem := hqueued id
    rw [hadded.ids, List.mem_append] at hmem
    constructor
    · intro hin
      have hfree : id ∉ p.queue.ids := fun hold => hdistinct.2.2 id hold id hin rfl
      obtain ⟨⟨t, ht, rfl⟩, hnamed, -⟩ := (hmem.1 (.inr hin)).resolve_left hfree
      exact ⟨hnamed, hfree, t, (d.mem_targets hk).1 ht⟩
    · rintro ⟨hnamed, hfree, t, ht, hfinds⟩
      obtain rfl := hk.task ht
      have htarget : t ∈ d.targets p := (d.mem_targets hk).2 ⟨ht, hfinds⟩
      exact (hmem.2 (.inr ⟨⟨t, htarget, rfl⟩, hnamed, ht ▸ rfl⟩)).resolve_left hfree
  · -- the second pass has the same targets, and all of them are queued
    obtain ⟨m, hm, hsize'⟩ := attempt_detect_counted d q
    rw [hleads.targets_eq, published_of_absorbs hq habsorbs] at hm hsize'
    obtain rfl : m = 0 := by omega
    exact hm

/-- A pool with a received task that is queued, two that are not, one of them without a name, and
one that is under way. -/
def neglected : Pool := blank.after [
  .insertTask (Task.plain "0x1"),
  .insertTask (Task.plain "0x2"),
  .insertTask (Task.plain ""),
  .insertTask ((Task.plain "0x3").changeStatus .epoch .running),
  .publish "0x1"]

/-- One task is published, since of the other two one is queued and one has no name; a second pass
finds nothing. -/
theorem detects_stalled_neglected : neglected.Reachable ∧
    ∃ q, neglected.attempt (detect .unstartedTransaction) = (.ok 1, q) ∧
      q.queue.ids = ["0x1", "0x2"] ∧ q.attempt (detect .unstartedTransaction) = (.ok 0, q) := by
  have hreachable : neglected.Reachable := isNew_blank.reachable.after _
  obtain ⟨q, added, hq, -, -, -, -, -, hagain⟩ := detects_stalled hreachable .unstartedTransaction
  have hlength : .ok 1 = Except.ok added.length := congrArg Prod.fst hq
  refine ⟨hreachable, q, hlength ▸ hq, ?_, hagain⟩
  rw [show q = (neglected.attempt (detect .unstartedTransaction)).2 from
    (congrArg Prod.snd hq).symm]
  rfl

end Pool

end ComputePool
