import ComputePool.Proofs.Admission
import ComputePool.Proofs.Lifecycle

/-!
# Worker slots

A worker computes at most so many tasks at once. What it computes is written down three times: in
its own record, in the replicate lists, and in the statuses of the tasks. `Pool.Accounted` says
that the three agree at all times, for the runs in which workers register once, replicates come in
by admission alone, and tasks are changed by updates alone (`Event.Booked`).

The invariant says more than the agreement, so that it can be carried from event to event: a
replicate belongs to a stored task (a new task starts without one) and to a known worker that may
join (a worker that registers starts without one, and one that is removed leaves none).

Only two events change the agreement: an enrolment (`Accounted.enrol`) adds to all three, and a
move (`Accounted.advance`) to a status that frees workers takes the task from the record of each
participant. What they do to the record of one worker is `Worker.Accounted.addTask` and
`Worker.Accounted.releaseTask`. The rest changes nothing that is looked at (`Accounted.of_same`).
-/

namespace ComputePool

/-- The worker has a replicate of the task. -/
def Pool.takesPart (id wallet : String) (p : Pool) : Bool :=
  (p.store.list? id).any (·.hasWorker wallet)

/-- The task is stored and its participants hold a slot for it. -/
def Pool.isRunning (id : String) (p : Pool) : Bool :=
  (p.store.task? id).any fun t => !t.status.freesWorkers

/-- The record of a worker agrees with the replicate lists and the tasks. -/
structure Worker.Accounted (p : Pool) (wallet : String) (w : Worker) : Prop where
  participating : ∀ id, id ∈ w.participating ↔ p.takesPart id wallet
  computing : ∀ id, id ∈ w.computing ↔ p.takesPart id wallet ∧ p.isRunning id
  participatingOnce : w.participating.Nodup
  computingOnce : w.computing.Nodup
  bounded : w.computing.length ≤ w.maxTasks

/-- All workers are accounted for. -/
structure Pool.Accounted (p : Pool) : Prop where
  /-- Replicates belong to stored tasks. -/
  stored : ∀ {id wallet : String}, p.takesPart id wallet → (p.store.task? id).isSome
  /-- Replicates belong to known workers that may join. -/
  welcome : ∀ {id wallet : String}, p.takesPart id wallet → p.Welcome wallet
  worker : ∀ {wallet : String} {w : Worker}, p.registry.worker? wallet = some w →
    w.Accounted p wallet

/-- Workers register once, replicates come in by admission alone, and tasks are new or changed by
updates. -/
def Event.Booked (p : Pool) : Event → Prop
  | .step s =>
    match s with
    | .insertTask t => t.IsNew
    | .addWorker w =>
      p.registry.worker? w.wallet = none ∧ w.participating = [] ∧ w.computing = []
    | .saveTask _ | .addReplicate .. | .removeReplicate .. | .removeWorker _ | .addWork ..
    | .endWork .. => False
    | _ => True
  | _ => True

/-- In booked events tasks change by updates alone. -/
theorem Event.Booked.regular {p : Pool} {e : Event} (h : e.Booked p) : e.Regular := by
  cases e with
  | step s =>
    cases s with
    | insertTask t => exact h
    | saveTask t => exact h
    | _ => trivial
  | _ => trivial

/-! ## The record of one worker -/

namespace Worker.Accounted

variable {p q : Pool} {w : Worker} {wallet id : String}

/-- What the record is compared with is the same. -/
theorem of_same (h : w.Accounted p wallet)
    (hpart : ∀ i, q.takesPart i wallet = p.takesPart i wallet)
    (hrunning : ∀ i, p.takesPart i wallet → q.isRunning i = p.isRunning i) :
    w.Accounted q wallet := by
  refine ⟨fun i => ?_, fun i => ?_, h.participatingOnce, h.computingOnce, h.bounded⟩
  · rw [hpart]
    exact h.participating i
  · rw [hpart, h.computing i]
    exact and_congr_right fun hin => by rw [hrunning i hin]

/-- A worker without ids is one without replicates. -/
theorem of_empty (hparticipating : w.participating = []) (hcomputing : w.computing = [])
    (hnone : ∀ i, ¬ p.takesPart i wallet) : w.Accounted p wallet := by
  refine ⟨fun i => ?_, fun i => ?_, ?_, ?_, ?_⟩
  · rw [hparticipating]
    exact iff_of_false List.not_mem_nil (hnone i)
  · rw [hcomputing]
    exact iff_of_false List.not_mem_nil fun hin => hnone i hin.1
  · rw [hparticipating]
    exact List.nodup_nil
  · rw [hcomputing]
    exact List.nodup_nil
  · rw [hcomputing]
    exact Nat.zero_le _

/-- A task that runs no more leaves the record of a participant. -/
theorem releaseTask (h : w.Accounted p wallet)
    (hpart : ∀ i, q.takesPart i wallet = p.takesPart i wallet)
    (hrunning : ∀ i, q.isRunning i = if id = i then false else p.isRunning i) :
    (w.releaseTask id).Accounted q wallet := by
  refine ⟨fun i => ?_, fun i => ?_, h.participatingOnce, h.computingOnce.filter _, ?_⟩
  · rw [hpart]
    exact h.participating i
  · rw [mem_computing_releaseTask, h.computing i, hpart, hrunning]
    by_cases hid : id = i
    · rw [if_pos hid]
      simp [hid]
    · rw [if_neg hid]
      simp [Ne.symm hid]
  · have hle : (w.releaseTask id).computing.length ≤ w.computing.length := List.length_filter_le ..
    exact hle.trans h.bounded

/-- A running task comes into the record of a worker that has a slot for it. -/
theorem addTask (h : w.Accounted p wallet) (hfree : w.hasFreeSlot = true)
    (hruns : p.isRunning id = true)
    (hpart : ∀ i, q.takesPart i wallet = (p.takesPart i wallet || id == i))
    (hrunning : ∀ i, q.isRunning i = p.isRunning i) : (w.addTask id).Accounted q wallet := by
  refine ⟨fun i => ?_, fun i => ?_, nodup_addOnce h.participatingOnce,
    nodup_addOnce h.computingOnce, ?_⟩
  · refine mem_addOnce.trans ?_
    rw [hpart, h.participating i, Bool.or_eq_true, beq_iff_eq]
    exact or_congr_right eq_comm
  · refine mem_addOnce.trans ?_
    rw [hpart, h.computing i, hrunning, Bool.or_eq_true, beq_iff_eq]
    constructor
    · rintro (⟨hin, hrun⟩ | rfl)
      · exact ⟨.inl hin, hrun⟩
      · exact ⟨.inr rfl, hruns⟩
    · rintro ⟨hin | rfl, hrun⟩
      · exact .inl ⟨hin, hrun⟩
      · exact .inr rfl
  · have hslot : w.computing.length < w.maxTasks := of_decide_eq_true hfree
    have hlength := length_addOnce_le id w.computing
    show (addOnce id w.computing).length ≤ w.maxTasks
    omega

end Worker.Accounted

namespace Pool.Accounted

variable {p q : Pool}

/-- What is looked at is the same, so the agreement is. -/
theorem of_same (h : p.Accounted)
    (htasks : ∀ id, (p.store.task? id).isSome → (q.store.task? id).isSome)
    (hpart : ∀ id wallet, q.takesPart id wallet = p.takesPart id wallet)
    (hrunning : ∀ id wallet, p.takesPart id wallet → q.isRunning id = p.isRunning id)
    (hregistry : q.registry = p.registry) : q.Accounted := by
  refine ⟨fun hin => ?_, fun hin => ?_, fun {wallet w} hw => ?_⟩
  · rw [hpart] at hin
    exact htasks _ (h.stored hin)
  · rw [hpart] at hin
    have hwelcome := h.welcome hin
    exact ⟨hregistry ▸ hwelcome.known, hregistry ▸ hwelcome.allowed⟩
  · rw [hregistry] at hw
    exact (h.worker hw).of_same (fun id => hpart id wallet) fun id => hrunning id wallet

/-- Neither records nor workers changed. -/
theorem of_records (h : p.Accounted) (hstore : q.store = p.store)
    (hregistry : q.registry = p.registry) : q.Accounted := by
  refine h.of_same (fun id => ?_) (fun id wallet => ?_) (fun id wallet _ => ?_) hregistry
  · rw [hstore]
    exact fun h => h
  · unfold takesPart
    rw [hstore]
  · unfold isRunning
    rw [hstore]

/-- A new pool has no workers and no tasks, so nothing is out of account. -/
theorem of_isNew (h : p.IsNew) : p.Accounted := by
  have hpart : ∀ {id wallet : String}, ¬ p.takesPart id wallet := by
    intro id wallet
    unfold takesPart
    rw [h.store]
    exact Bool.false_ne_true
  refine ⟨fun hin => absurd hin hpart, fun hin => absurd hin hpart, fun hw => ?_⟩
  unfold Registry.worker? at hw
  rw [h.workers] at hw
  exact absurd hw (by simp)

/-! ## Single steps -/

/-- A task may be stored: if it is new to the store it has no replicates yet. -/
theorem insertTask (h : p.Accounted) (t : Task) : (p.insertTask t).2.Accounted := by
  rcases p.insertTask_cases t with hp | ⟨hnone, hp⟩
  · rw [hp]
    exact h
  · have htask : ∀ id, (p.insertTask t).2.store.task? id =
        if t.chainTaskId = id then some t else p.store.task? id := by
      intro id
      rw [hp]
      exact Store.task?_insert ..
    have hpart : ∀ id wallet, (p.insertTask t).2.takesPart id wallet = p.takesPart id wallet := by
      intro id wallet
      rw [hp]
      rfl
    refine h.of_same (fun id hsome => ?_) hpart (fun id wallet hin => ?_) ?_
    · rw [htask]
      split
      · rfl
      · exact hsome
    · have hne : t.chainTaskId ≠ id := by
        rintro rfl
        -- a participant would be one of a stored task
        have hsome := h.stored hin
        rw [hnone] at hsome
        exact absurd hsome (by simp)
      unfold isRunning
      rw [htask, if_neg hne]
    · rw [hp]

/-- A worker that is not known has no replicates yet. -/
theorem addWorker (h : p.Accounted) {w : Worker} (hunknown : p.registry.worker? w.wallet = none)
    (hparticipating : w.participating = []) (hcomputing : w.computing = []) :
    (p.addWorker w).Accounted := by
  have hworker : ∀ wallet, (p.addWorker w).registry.worker? wallet =
      if w.wallet = wallet then some w else p.registry.worker? wallet :=
    fun wallet => Registry.worker?_add w p.registry wallet
  -- with a replicate it would be known
  have hnone : ∀ id, ¬ p.takesPart id w.wallet := by
    intro id hin
    obtain ⟨w', hw'⟩ := (h.welcome hin).known
    exact absurd (hunknown.symm.trans hw') (by simp)
  refine ⟨fun hin => h.stored hin, fun {id wallet} hin => ⟨?_, (h.welcome hin).allowed⟩, ?_⟩
  · rw [hworker]
    split
    · exact ⟨w, rfl⟩
    · exact (h.welcome hin).known
  · intro wallet w' hw'
    rw [hworker] at hw'
    split at hw'
    · next hwallet =>
      obtain rfl := Option.some.inj hw'
      subst hwallet
      exact .of_empty hparticipating hcomputing hnone
    · exact (h.worker hw').of_same (fun _ => rfl) fun _ _ => rfl

/-- A list is created without replicates. -/
theorem createList (h : p.Accounted) (id : String) : (p.createList id).2.Accounted := by
  have htask : ∀ i, (p.createList id).2.store.task? i = p.store.task? i := by
    intro i
    unfold Store.task?
    rw [createList_tasks]
  refine h.of_same (fun i hi => ?_) (fun i wallet => ?_) (fun i wallet _ => ?_) ?_
  · rw [htask]
    exact hi
  · unfold takesPart
    rw [createList_list?]
    split
    · cases p.store.list? i with
      | none => rfl
      | some l => rfl
    · rfl
  · unfold isRunning
    rw [htask]
  · exact congrArg (·.registry) (writeStore_snd _ p)

/-- An update of a replicate leaves the wallets in the list. -/
theorem updateReplicate (h : p.Accounted) (id wallet : String) (u : StatusUpdate) :
    (p.updateReplicate id wallet u).2.Accounted := by
  have htasks : (p.updateReplicate id wallet u).2.store.tasks = p.store.tasks :=
    p.store.tasks_updateReplicate id wallet u
  have hlist : ∀ i, (p.updateReplicate id wallet u).2.store.list? i =
      if id = i then (p.store.list? i).map (·.report wallet u) else p.store.list? i :=
    p.store.list?_updateReplicate id wallet u
  refine h.of_same (fun i hi => ?_) (fun i other => ?_) (fun i other _ => ?_) rfl
  · unfold Store.task?
    rw [htasks]
    exact hi
  · unfold takesPart
    rw [hlist]
    split
    · rw [Option.any_map]
      congr 1
      funext l
      exact l.hasWorker_report wallet u other
    · rfl
  · unfold isRunning Store.task?
    rw [htasks]

/-! ## Moves -/

/-- A move keeps the agreement: one that frees workers takes the task from each participant. -/
theorem advance (h : p.Accounted) {t : Task} {status : TaskStatus}
    (ht : p.store.task? t.chainTaskId = some t)
    (hs : (p.outlook t.chainTaskId).next t = some status)
    (hpolicy : (p.advanced status t).registry.whitelist = p.registry.whitelist) :
    (p.advanced status t).Accounted := by
  have htask := task?_advanced status ht
  have hpart : ∀ id wallet, (p.advanced status t).takesPart id wallet = p.takesPart id wallet := by
    intro id wallet
    unfold takesPart
    rw [list?_advanced status ht]
    split
    · next hid => rw [Outlook.hasWorker_listAfter, ← hid]; rfl
    · rfl
  have hrunning : ∀ id, (p.advanced status t).isRunning id =
      if t.chainTaskId = id then !status.freesWorkers else p.isRunning id := by
    intro id
    unfold isRunning
    rw [htask]
    split
    · rfl
    · rfl
  have hbefore : p.isRunning t.chainTaskId = !t.status.freesWorkers := by
    unfold isRunning
    rw [ht]
    rfl
  have hworker : ∀ wallet, (p.advanced status t).registry.worker? wallet =
      if status.freesWorkers ∧ p.takesPart t.chainTaskId wallet then
        (p.registry.worker? wallet).map (·.releaseTask t.chainTaskId)
      else p.registry.worker? wallet := by
    intro wallet
    rw [worker?_advanced status ht, Outlook.hasWorker_listAfter]
    rfl
  refine ⟨fun {id wallet} hin => ?_, fun {id wallet} hin => ?_, fun {wallet w} hw => ?_⟩
  · rw [hpart] at hin
    rw [htask]
    split
    · rfl
    · exact h.stored hin
  · rw [hpart] at hin
    obtain ⟨w, hw⟩ := (h.welcome hin).known
    refine ⟨?_, ?_⟩
    · rw [hworker, hw]
      split
      · exact ⟨_, rfl⟩
      · exact ⟨w, rfl⟩
    · unfold Registry.isAllowed
      rw [hpolicy]
      exact (h.welcome hin).allowed
  · rw [hworker] at hw
    split at hw
    · next hfrees =>
      -- a participant is freed: the task leaves its record, and runs no more
      obtain ⟨w', hw', rfl⟩ := Option.map_eq_some_iff.1 hw
      refine (h.worker hw').releaseTask (fun id => hpart id wallet) fun id => ?_
      rw [hrunning, hfrees.1]
      rfl
    · next hkept =>
      refine (h.worker hw).of_same (fun id => hpart id wallet) fun id hin => ?_
      rw [hrunning]
      by_cases hid : t.chainTaskId = id
      · -- the worker takes part, so the move frees nobody, and the task ran before
        subst hid
        have hfrees : status.freesWorkers = false := by
          simpa using fun hfrees => hkept ⟨hfrees, hin⟩
        rw [if_pos rfl, hbefore, hfrees,
          TaskStatus.freesWorkers_of_successor (Outlook.next_mem_successors _ hs) hfrees]
      · rw [if_neg hid]

/-- An update keeps the agreement. -/
theorem update (h : p.Accounted) (hk : p.store.Keyed) (id : String) : (p.update id).Accounted := by
  have hpolicy : (p.update id).registry.whitelist = p.registry.whitelist :=
    congrArg (·.whitelist) (updateTask_updates id p).policy
  cases hdue : p.due? id with
  | none =>
    rw [update_of_not_due hk hdue]
    exact h
  | some move =>
    obtain ⟨t, status⟩ := move
    obtain ⟨ht, hs⟩ := due?_eq_some.1 hdue
    obtain rfl := hk.task ht
    rw [update_of_due hk hdue] at hpolicy ⊢
    exact h.advance ht hs hpolicy

/-! ## Requests for work -/

/-- An enrolment adds the task to the record of the worker and a replicate to the list. -/
theorem enrol (h : p.Accounted) {t : Task} {wallet : String} (hwelcome : p.Welcome wallet)
    (hfree : p.registry.canAccept wallet = true)
    (ht : p.store.task? t.chainTaskId = some t) (hopen : t.status.isOpen = true)
    (hq : p.Enrolled t.chainTaskId wallet q)
    (hpolicy : q.registry.whitelist = p.registry.whitelist) : q.Accounted := by
  obtain ⟨l, hl, hn, hstore⟩ := hq.list
  have hworker := Registry.worker?_addTask hq.registry
  have htask : ∀ id, q.store.task? id = p.store.task? id := by
    intro id
    rw [hstore]
    rfl
  have hrunning : ∀ id, q.isRunning id = p.isRunning id := by
    intro id
    unfold isRunning
    rw [htask]
  have hruns : p.isRunning t.chainTaskId = true := by
    unfold isRunning
    rw [ht]
    exact TaskStatus.not_freesWorkers_of_isOpen hopen
  have hpart : ∀ id other, q.takesPart id other =
      (p.takesPart id other || t.chainTaskId == id && wallet == other) := by
    intro id other
    unfold takesPart
    rw [hstore, Store.list?_setList]
    by_cases hid : t.chainTaskId = id
    · rw [if_pos hid, ← hid, hl, Option.any_some, Option.any_some, l.hasWorker_plus,
        beq_self_eq_true, Bool.true_and]
    · rw [if_neg hid, beq_false_of_ne hid, Bool.false_and, Bool.or_false]
  have hknown : ∀ other, (∃ w, p.registry.worker? other = some w) →
      ∃ w, q.registry.worker? other = some w := by
    rintro other ⟨w, hw⟩
    rw [hworker, hw]
    split
    · exact ⟨_, rfl⟩
    · exact ⟨w, rfl⟩
  have hallowed : ∀ other, q.registry.isAllowed other = p.registry.isAllowed other := by
    intro other
    unfold Registry.isAllowed
    rw [hpolicy]
  refine ⟨fun {id other} hin => ?_, fun {id other} hin => ?_, fun {other w} hw => ?_⟩
  · rw [htask]
    rw [hpart, Bool.or_eq_true, Bool.and_eq_true, beq_iff_eq] at hin
    rcases hin with hin | ⟨rfl, -⟩
    · exact h.stored hin
    · rw [ht]
      rfl
  · rw [hpart, Bool.or_eq_true, Bool.and_eq_true, beq_iff_eq, beq_iff_eq] at hin
    have hold : p.Welcome other := by
      rcases hin with hin | ⟨-, rfl⟩
      · exact h.welcome hin
      · exact hwelcome
    exact ⟨hknown other hold.known, (hallowed other).trans hold.allowed⟩
  · rw [hworker] at hw
    split at hw
    · next hother =>
      subst hother
      obtain ⟨w', hw', rfl⟩ := Option.map_eq_some_iff.1 hw
      have hslot : w'.hasFreeSlot = true := by
        unfold Registry.canAccept at hfree
        rw [hw'] at hfree
        exact hfree
      refine (h.worker hw').addTask hslot hruns (fun id => ?_) hrunning
      rw [hpart, beq_self_eq_true, Bool.and_true]
    · next hother =>
      refine (h.worker hw).of_same (fun id => ?_) fun id _ => hrunning id
      rw [hpart, beq_false_of_ne hother, Bool.and_false, Bool.or_false]

/-- A worker that may not join leaves no replicates. -/
theorem remove (h : p.Accounted) {wallet : String} (hban : p.registry.isAllowed wallet = false) :
    Pool.Accounted { p with registry := p.registry.remove wallet } := by
  have hnone : ∀ id, ¬ p.takesPart id wallet := fun id hin =>
    absurd ((h.welcome hin).allowed.symm.trans hban) (by simp)
  refine ⟨fun hin => h.stored hin, fun {id other} hin => ⟨?_, (h.welcome hin).allowed⟩, ?_⟩
  · have hother : wallet ≠ other := by
      rintro rfl
      exact hnone id hin
    obtain ⟨w, hw⟩ := (h.welcome hin).known
    refine ⟨w, ?_⟩
    rw [Registry.worker?_remove, if_neg hother]
    exact hw
  · intro other w hw
    have hw : (p.registry.remove wallet).worker? other = some w := hw
    rw [Registry.worker?_remove] at hw
    split at hw
    · exact absurd hw (by simp)
    · exact (h.worker hw).of_same (fun _ => rfl) fun _ _ => rfl

/-- Who asks for work keeps the agreement, however it ends. -/
theorem find (h : p.Accounted) (hk : p.store.Keyed) (lastBlock : UInt64) (wallet : String) :
    (p.attempt (findAuthorization lastBlock wallet)).2.Accounted := by
  have hpolicy := congrArg (·.whitelist) (findAuthorization_admits lastBlock wallet p).policy
  cases Pool.found hk lastBlock wallet with
  | nothing same => exact h.of_records (by rw [same]) (by rw [same])
  | removed banned pool =>
    rw [pool]
    exact h.remove banned
  | enrolled t welcome free stored isOpen enrolled =>
    exact h.enrol welcome free stored isOpen enrolled hpolicy

/-! ## Runs -/

/-- A step that touches neither records nor workers. -/
theorem step_of_part (h : p.Accounted) {s : Step} (hstore : s.part ≠ .store)
    (hregistry : s.part ≠ .registry) : (s.apply p).Accounted :=
  h.of_records (s.store_apply p hstore) (s.registry_apply p hregistry)

theorem publish (h : p.Accounted) (id : String) : ((Step.publish id).apply p).Accounted :=
  h.step_of_part (by simp [Step.part]) (by simp [Step.part])

theorem step_of_recovers (h : p.Accounted) {s : Step} (hs : s.Recovers) :
    (s.apply p).Accounted := by
  cases s with
  | updateReplicate id wallet u => exact h.updateReplicate id wallet u
  | publish id => exact h.publish id
  | _ => exact hs.elim

/-- Every booked event keeps the agreement. -/
theorem event (h : p.Accounted) (hk : p.store.Keyed) {e : Event} (he : e.Booked p) :
    (e.apply p).Accounted := by
  cases e with
  | step s =>
    cases s with
    | insertTask t => exact h.insertTask t
    | createList id => exact h.createList id
    | updateReplicate id wallet u => exact h.updateReplicate id wallet u
    | addWorker w => exact h.addWorker he.1 he.2.1 he.2.2
    | saveTask t => exact he.elim
    | addReplicate read wallet => exact he.elim
    | removeReplicate id wallet => exact he.elim
    | removeWorker wallet => exact he.elim
    | addWork wallet id => exact he.elim
    | endWork wallet id => exact he.elim
    | changeChain f => exact h.of_records rfl rfl
    | setClock now => exact h.of_records rfl rfl
    | draw n => exact h.of_records rfl rfl
    | publish id => exact h.publish id
    | tryLock id => exact h.of_records rfl rfl
    | unlock t => exact h.of_records rfl rfl
    | dispatch m => exact h.of_records rfl rfl
  | update id => exact h.update hk id
  | serve id =>
    have hserve := serve_eq hk id
    exact (h.update hk id).of_records (congrArg (·.store) hserve) (congrArg (·.registry) hserve)
  | find lastBlock wallet => exact h.find hk lastBlock wallet
  | recover block wallet =>
    exact (Event.leads (.recover block wallet) p).keeps (P := Pool.Accounted)
      (fun s hs q hq => hq.step_of_recovers hs) h
  | detect d =>
    exact (Event.leads (.detect d) p).keeps (P := Pool.Accounted)
      (fun s hs q hq => hq.step_of_recovers (Step.Publishes.recovers hs)) h

end Pool.Accounted

/-- Worker slots are neither leaked nor over-committed: at all times the record of a worker names
exactly the tasks in which it has a replicate, and as computed exactly those of them that are not
over; each of them once, and no more than the worker takes at once. -/
theorem Pool.slots_accounted {start p : Pool} (hstart : start.IsNew)
    (hrun : start.Runs (fun q e => e.Booked q) p) {wallet : String} {w : Worker}
    (hw : p.registry.worker? wallet = some w) :
    (∀ id, id ∈ w.participating ↔ p.takesPart id wallet) ∧
    (∀ id t, p.store.task? id = some t → (id ∈ w.computing ↔ p.takesPart id wallet ∧
      t.status ≠ .completed ∧ t.status ≠ .failed ∧ t.status ≠ .contributionTimeout)) ∧
    w.participating.Nodup ∧ w.computing.Nodup ∧ w.computing.length ≤ w.maxTasks := by
  have hkept : p.Accounted := hrun.keeps_keyed (fun q e hk he hq => hq.event hk he)
    hstart.wellKept.keyed (.of_isNew hstart)
  have hworker := hkept.worker hw
  refine ⟨hworker.participating, fun id t ht => ?_, hworker.participatingOnce,
    hworker.computingOnce, hworker.bounded⟩
  have hrunning : p.isRunning id ↔
      t.status ≠ .completed ∧ t.status ≠ .failed ∧ t.status ≠ .contributionTimeout := by
    unfold isRunning
    rw [ht, Option.any_some]
    cases t.status <;> decide
  rw [hworker.computing id, hrunning]

/-- A worker with one slot is admitted into the only task, and the slot is its own. -/
theorem Pool.slots_accounted_admitted : ∃ p w, blank.Runs (fun q e => e.Booked q) p ∧
    p.registry.worker? "0xa" = some w ∧ w.participating = ["0x1"] ∧ w.computing = ["0x1"] ∧
    p.takesPart "0x1" "0xa" ∧ w.computing.length ≤ w.maxTasks := by
  have hempty : blank.Runs (fun q e => e.Booked q) blank := .refl
  have hnew : (Task.plain "0x1").IsNew := ⟨rfl, rfl, .epoch, rfl⟩
  have hinsert := hempty.snoc (.step (.insertTask (.plain "0x1"))) hnew
  have hchain := hinsert.snoc (.step (.changeChain (·.setTask (.plain "0x1")))) trivial
  have hinitialized := (hchain.snoc (.update "0x1") trivial).snoc (.update "0x1") trivial
  have hworker := hinitialized.snoc (.step (.addWorker (.fresh .epoch "0xa" 1))) ⟨rfl, rfl, rfl⟩
  have hrun := hworker.snoc (.find 1 "0xa") trivial
  obtain ⟨hids, -, -, -, hbounded⟩ :=
    slots_accounted isNew_blank hrun (show Registry.worker? "0xa" _ = some _ from rfl)
  have hin := (hids "0x1").1 (by decide)
  exact ⟨_, _, hrun, rfl, by decide, by decide, hin, hbounded⟩

end ComputePool
