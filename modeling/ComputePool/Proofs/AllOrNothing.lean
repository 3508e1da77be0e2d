import ComputePool.Proofs.FirstFit
import ComputePool.Proofs.Workers

/-!
# A worker is admitted, or nothing happened

An attempt to admit a worker into a task ends in one of four ways (`Pool.Attempted`), whether the
worker is registered or not:

* the policy does not let the worker join, and its own entry is removed from the registry;
* the task does not take the worker;
* the task takes a worker that nobody knows, so that the record of the work fails and the replicate
  is taken back;
* the worker is admitted.

In the first three nothing is left of the attempt (`Pool.Untouched`) but the entry that was removed,
or the count of two changes of a list. In all of them the same locks are held afterwards.
-/

namespace ComputePool

namespace Pool

variable {p q : Pool} {t : Task} {id wallet : String} {r : Except PoolError Bool}

/-- How an attempt to admit a worker into a task may end. -/
inductive Attempted (p : Pool) (t : Task) (wallet : String) : Except PoolError Bool → Pool → Prop
    where
  | banned (banned : p.registry.isAllowed wallet = false) :
      Attempted p t wallet (.ok false) { p with registry := p.registry.remove wallet }
  | refused {q : Pool} (refuses : p.takes t wallet = false) (same : p.Undisturbed q) :
      Attempted p t wallet (.ok false) q
  | takenBack {q : Pool} (unknown : p.registry.worker? wallet = none)
      (after : p.TakenBack t.chainTaskId wallet q)
      (others : q = { p with store := q.store, dispatcher := q.dispatcher })
      (relocked : p.dispatcher.Relocked q.dispatcher) :
      Attempted p t wallet (.error (.store (.notFound "worker" wallet))) q
  | admitted {q : Pool} (welcome : p.Welcome wallet) (takes : p.takes t wallet = true)
      (after : p.Admitted wallet t.chainTaskId q) : Attempted p t wallet (.ok true) q

/-- Every attempt ends in one of these ways. -/
theorem exists_attempted (hk : p.store.Keyed) (hprompt : p.locks.Prompt) (t : Task)
    (wallet : String) :
    ∃ r q, p.attempt (acceptOrReject t wallet) = (r, q) ∧ p.Attempted t wallet r q := by
  cases hallowed : p.registry.isAllowed wallet with
  | false => exact ⟨_, _, attempt_acceptOrReject_banned hallowed t, .banned hallowed⟩
  | true =>
    cases htakes : p.takes t wallet with
    | false =>
      obtain ⟨q, hq, hsame, hrelocked⟩ := attempt_acceptOrReject_of_not_takes hallowed htakes
      exact ⟨_, q, hq, .refused htakes ⟨hsame, hrelocked hprompt⟩⟩
    | true =>
      cases hw : p.registry.worker? wallet with
      | some w =>
        obtain ⟨q, hq, hdecided⟩ := attempt_acceptOrReject hk ⟨⟨w, hw⟩, hallowed⟩ t
        rw [htakes] at hq hdecided
        have henrolled := hdecided.records
        rw [if_pos rfl] at henrolled
        exact ⟨_, q, hq, .admitted ⟨⟨w, hw⟩, hallowed⟩ htakes
          ⟨henrolled, hdecided.others, hdecided.relocked hprompt⟩⟩
      | none =>
        have hroom : (p.tryLock t.chainTaskId).2.hasRoom t wallet = true := by
          unfold takes at htakes
          rw [Bool.and_eq_true] at htakes
          exact htakes.2
        obtain ⟨l, hl, hn, hdecide⟩ := attempt_decideLocked_of_room hroom
        have hlocked : p.Likewise (p.tryLock t.chainTaskId).2 := rfl
        have hunknown : (p.tryLock t.chainTaskId).2.registry.worker? wallet = none := hw
        obtain ⟨q, hq, hback, hothers⟩ :=
          attempt_enrol_unknown (hlocked.keyed hk) hunknown hl hn
        obtain ⟨ticket, hattempt, hrelocked⟩ :=
          attempt_acceptOrReject_of_takes hallowed htakes (hdecide.trans hq)
        refine ⟨_, q.unlock ticket, hattempt, .takenBack hw ⟨hback.list, hback.tasks⟩ ?_ ?_⟩
        · rw [hothers]
          rfl
        · rw [hothers]
          exact hrelocked hprompt

/-- Nothing is left of an attempt with this result but, if the worker may not join, that its own
entry is gone, and, if the record of the work failed, that its list was changed twice. -/
structure Untouched (p : Pool) (id wallet : String) (r : Except PoolError Bool) (q : Pool) :
    Prop where
  tasks : q.store.tasks = p.store.tasks
  replicates : ∀ i, (q.store.list? i).map (·.replicates) = (p.store.list? i).map (·.replicates)
  lists : ∀ i, q.store.list? i = p.store.list? i ∨
    i = id ∧ r = .error (.store (.notFound "worker" wallet)) ∧
      q.store.list? i = (p.store.list? i).map fun l => { l with version := l.version + 2 }
  worker : q.registry.worker? wallet = p.registry.worker? wallet ∨
    p.registry.isAllowed wallet = false ∧ q.registry.worker? wallet = none
  otherWorkers : ∀ other, other ≠ wallet →
    q.registry.worker? other = p.registry.worker? other

/-- The attempt added one replicate of the worker to the list of the task, and the task to both
lists of the worker. -/
structure Joined (p : Pool) (id wallet : String) (q : Pool) : Prop where
  tasks : q.store.tasks = p.store.tasks
  list : ∃ l, p.store.list? id = some l ∧ (∀ r ∈ l.replicates, r.wallet ≠ wallet) ∧
    q.store.list? id = some { l with
      version := l.version + 1
      replicates := l.replicates ++ [.fresh p.now wallet id] }
  otherLists : ∀ i, i ≠ id → q.store.list? i = p.store.list? i
  worker : ∃ w, q.registry.worker? wallet = some w ∧ id ∈ w.participating ∧ id ∈ w.computing
  otherWorkers : ∀ other, other ≠ wallet →
    q.registry.worker? other = p.registry.worker? other

/-- Where the registry differs in the workers alone, and the dispatcher in the locks alone, so does
the pool. -/
theorem frame_of_relocked (hothers : q = { p with
      store := q.store, registry := q.registry, dispatcher := q.dispatcher })
    (hpolicy : q.registry = { p.registry with workers := q.registry.workers })
    (h : p.dispatcher.Relocked q.dispatcher) :
    q = { p with
      store := q.store
      registry := { p.registry with workers := q.registry.workers }
      dispatcher := { p.dispatcher with locks := q.locks } } :=
  hothers.trans (congrArg₂ (fun (g : Registry) (d : Dispatcher) =>
    { p with store := q.store, registry := g, dispatcher := d }) hpolicy h.others)

/-- The replicate that was taken back shows in the count of changes alone. -/
theorem TakenBack.untouched (h : p.TakenBack id wallet q)
    (hothers : q = { p with store := q.store, dispatcher := q.dispatcher }) :
    p.Untouched id wallet (.error (.store (.notFound "worker" wallet))) q := by
  obtain ⟨l, hl, -, hlists⟩ := h.list
  have hregistry : q.registry = p.registry := congrArg (·.registry) hothers
  refine ⟨h.tasks, fun i => ?_, fun i => ?_, .inl (by rw [hregistry]), fun other _ => by
    rw [hregistry]⟩
  · rw [hlists]
    by_cases hi : id = i
    · rw [if_pos hi, ← hi, hl]
      rfl
    · rw [if_neg hi]
  · rw [hlists]
    by_cases hi : id = i
    · refine .inr ⟨hi.symm, rfl, ?_⟩
      rw [if_pos hi, ← hi, hl]
      rfl
    · exact .inl (if_neg hi)

/-- Where an attempt leaves nothing behind it does not touch the worker's part in the task. -/
theorem Undisturbed.untouched (h : p.Undisturbed q) (id wallet : String)
    (r : Except PoolError Bool) : p.Untouched id wallet r q := by
  have hstore : q.store = p.store := congrArg (·.store) h.likewise
  have hregistry : q.registry = p.registry := congrArg (·.registry) h.likewise
  constructor <;> simp [hstore, hregistry]

/-- An admission of a known worker makes it a participant with a slot. -/
theorem Admitted.joined (h : p.Admitted wallet id q)
    (hw : ∃ w, p.registry.worker? wallet = some w) : p.Joined id wallet q := by
  obtain ⟨l, hl, hn, hstore⟩ := h.enrolled.list
  obtain ⟨w, hw⟩ := hw
  have hworker := Registry.worker?_addTask h.enrolled.registry
  have hlist (i : String) := congrArg (·.list? i) hstore
  refine ⟨by rw [hstore]; rfl, ⟨l, hl, fun r hr => ?_, ?_⟩, fun i hi => ?_,
    ⟨w.addTask id, ?_, Worker.mem_addOnce.2 (.inr rfl), Worker.mem_addOnce.2 (.inr rfl)⟩,
    fun other hother => ?_⟩
  · simpa using List.find?_eq_none.1 (ReplicateList.hasWorker_eq_false_iff.1 hn) r hr
  · exact (hlist id).trans ((Store.list?_setList ..).trans (if_pos rfl))
  · exact (hlist i).trans ((Store.list?_setList ..).trans (if_neg hi.symm))
  · rw [hworker, if_pos rfl, hw]
    rfl
  · rw [hworker, if_neg hother.symm]

/-- An attempt admits the worker, or it leaves all tasks, the replicates of all lists, the other
workers and the update queue as they were. The locks that are held are the same afterwards in any
case, and nobody is admitted into a task whose lock is held. -/
theorem admission_all_or_nothing (hp : p.Reachable) (t : Task) (wallet : String) :
    ∃ r q, p.attempt (acceptOrReject t wallet) = (r, q) ∧
      (r ≠ .ok true → p.Untouched t.chainTaskId wallet r q) ∧
      (r = .ok true → p.Joined t.chainTaskId wallet q) ∧
      q.queue = p.queue ∧
      q = { p with
        store := q.store
        registry := { p.registry with workers := q.registry.workers }
        dispatcher := { p.dispatcher with locks := q.locks } } ∧
      (∀ id, q.locks.isHeld id = p.locks.isHeld id) ∧
      (p.locks.isHeld t.chainTaskId = true → r ≠ .ok true) := by
  have hk : p.store.Keyed := hp.wellKept.keyed
  obtain ⟨r, q, hq, hattempted⟩ := exists_attempted hk hp.prompt t wallet
  have hpolicy : q.registry = { p.registry with workers := q.registry.workers } := by
    have hsteps := acceptOrReject_admits t wallet p
    rw [hq] at hsteps
    exact hsteps.policy
  refine ⟨r, q, hq, ?_⟩
  cases hattempted with
  | banned hbanned =>
    have huntouched : p.Untouched t.chainTaskId wallet (.ok false)
        { p with registry := p.registry.remove wallet } := by
      refine ⟨rfl, fun _ => rfl, fun _ => .inl rfl, .inr ⟨hbanned, ?_⟩, fun other hne => ?_⟩
      · exact (Registry.worker?_remove ..).trans (if_pos rfl)
      · exact (Registry.worker?_remove ..).trans (if_neg hne.symm)
    exact ⟨fun _ => huntouched, fun hok => absurd hok (by simp), rfl, rfl, fun _ => rfl,
      fun _ => by simp⟩
  | refused refuses same =>
    refine ⟨fun _ => same.untouched .., fun hok => absurd hok (by simp),
      congrArg (·.queue) same.relocked.others, ?_, same.relocked.held, fun _ => by simp⟩
    refine frame_of_relocked ?_ hpolicy same.relocked
    rw [show q = _ from same.likewise]
  | takenBack unknown after others relocked =>
    refine ⟨fun _ => after.untouched others, fun hok => absurd hok (by simp),
      congrArg (·.queue) relocked.others, ?_, relocked.held, fun _ => by simp⟩
    refine frame_of_relocked ?_ hpolicy relocked
    rw [others]
  | admitted welcome takes after =>
    refine ⟨fun hne => absurd rfl hne, fun _ => after.joined welcome.known,
      congrArg (·.queue) after.relocked.others, ?_, after.relocked.held, fun hheld => ?_⟩
    · exact frame_of_relocked after.others hpolicy after.relocked
    · unfold Pool.takes at takes
      rw [hheld, Bool.not_true, Bool.and_false, Bool.false_and] at takes
      exact absurd takes Bool.false_ne_true

/-- A known worker joins; an unknown one is taken back out, which shows in nothing but the version
of the list. -/
theorem admission_all_or_nothing_contended : contended.Reachable ∧
    (∃ q, contended.attempt (acceptOrReject (plainIn "0x1" .initialized) "0xa") = (.ok true, q) ∧
      contended.Joined "0x1" "0xa" q) ∧
    ∃ q, contended.attempt (acceptOrReject (plainIn "0x1" .initialized) "0xb") =
        (.error (.store (.notFound "worker" "0xb")), q) ∧
      contended.Untouched "0x1" "0xb" (.error (.store (.notFound "worker" "0xb"))) q ∧
      q.store.list? "0x1" = some { ReplicateList.empty "0x1" with version := 2 } := by
  have hreachable : contended.Reachable := isNew_blank.reachable.after _
  refine ⟨hreachable, ?_, ?_⟩
  · obtain ⟨r, q, hq, -, hjoined, -⟩ :=
      admission_all_or_nothing hreachable (plainIn "0x1" .initialized) "0xa"
    obtain rfl : .ok true = r := congrArg Prod.fst hq
    exact ⟨q, hq, hjoined rfl⟩
  · obtain ⟨r, q, hq, huntouched, -⟩ :=
      admission_all_or_nothing hreachable (plainIn "0x1" .initialized) "0xb"
    obtain rfl : .error (.store (.notFound "worker" "0xb")) = r := congrArg Prod.fst hq
    refine ⟨q, hq, huntouched (by simp), ?_⟩
    obtain rfl : _ = q := congrArg Prod.snd hq
    rfl

end Pool

end ComputePool
