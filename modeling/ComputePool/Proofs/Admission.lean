import ComputePool.Proofs.Effects
import ComputePool.Proofs.Locks
import ComputePool.Proofs.OpenTasks
import ComputePool.Proofs.Workers

/-!
# What a request for work does

A worker that asks for work is shown the open tasks, the best first, each of them once, until one
takes it (`Pool.Scans`). It ends up in one of three ways (`Pool.Found`):

* nothing changes but the locks;
* the policy does not let it join, and it is removed from the registry;
* it is enrolled in one open task: its replicate is added to the list of the task, and the task to
  its own lists (`Pool.Enrolled`).

The records are read and written by one service alone here, so no write conflicts, and the record
of the work never fails: the worker is known, or it would not have got so far. So a replicate that
was added is never taken back, one attempt is enough, and `Pool.takes` says beforehand how it ends.
-/

namespace ComputePool

/-- Taking back the replicate of a newcomer leaves the replicates as they were, in a list that was
changed twice. -/
theorem ReplicateList.without_plus {l : ReplicateList} {wallet : String}
    (h : l.hasWorker wallet = false) (now : Instant) (id : String) :
    (l.plus now wallet id).without wallet = { l with version := l.version + 2 } := by
  have hnew : ∀ r ∈ l.replicates, (r.wallet != wallet) = true := fun r hr => by
    have hne := List.find?_eq_none.1 (hasWorker_eq_false_iff.1 h) r hr
    simpa using hne
  have hadded : (l.plus now wallet id).hasWorker wallet = true := by
    rw [hasWorker_plus, beq_self_eq_true, Bool.or_true]
  unfold without
  rw [if_pos hadded]
  unfold plus
  rw [List.filter_append, List.filter_eq_self.2 hnew, List.filter_singleton,
    show (Replicate.fresh now wallet id).wallet = wallet from rfl, bne_self_eq_false]
  simp

namespace Pool

/-- The pools are the same apart from the dispatcher. -/
def Likewise (p q : Pool) : Prop := q = { p with dispatcher := q.dispatcher }

/-- The worker was enrolled in a task, and nothing else changed about records and workers. -/
structure Enrolled (p : Pool) (id wallet : String) (q : Pool) : Prop where
  list : ∃ l, p.store.list? id = some l ∧ l.hasWorker wallet = false ∧
    q.store = p.store.setList id (l.plus p.now wallet id)
  registry : p.registry.addTask wallet id = .ok q.registry

/-- A replicate of the worker was added and taken back, and nothing else changed about records. -/
structure TakenBack (p : Pool) (id wallet : String) (q : Pool) : Prop where
  list : ∃ l, p.store.list? id = some l ∧ l.hasWorker wallet = false ∧ ∀ i, q.store.list? i =
    if id = i then some { l with version := l.version + 2 } else p.store.list? i
  tasks : q.store.tasks = p.store.tasks

/-- The worker is known and may join. -/
structure Welcome (p : Pool) (wallet : String) : Prop where
  known : ∃ w, p.registry.worker? wallet = some w
  allowed : p.registry.isAllowed wallet = true

variable {p q r : Pool} {t : Task} {wallet : String}

theorem Likewise.refl (p : Pool) : p.Likewise p := rfl

theorem Likewise.trans (h : p.Likewise q) (h' : q.Likewise r) : p.Likewise r := by
  unfold Likewise at h h' ⊢
  rw [h', h]

theorem Likewise.welcome (h : p.Likewise q) (hw : p.Welcome wallet) : q.Welcome wallet := by
  rw [h]
  exact ⟨hw.known, hw.allowed⟩

theorem Likewise.keyed (h : p.Likewise q) (hk : p.store.Keyed) : q.store.Keyed := by
  rw [h]
  exact hk

/-- Who is enrolled in a pool that differs in the dispatcher alone is enrolled in this one. -/
theorem Enrolled.of_likewise {id : String} (h : p.Likewise q) (he : q.Enrolled id wallet r) :
    p.Enrolled id wallet r := by
  rw [h] at he
  exact ⟨he.list, he.registry⟩

theorem Enrolled.likewise {id : String} (he : p.Enrolled id wallet q) (h : q.Likewise r) :
    p.Enrolled id wallet r := by
  rw [h]
  exact ⟨he.list, he.registry⟩

/-! ## One task -/

/-- The list of the task takes the worker, and there is no consensus on it yet. -/
def hasRoom (t : Task) (wallet : String) (p : Pool) : Bool :=
  (p.store.list? t.chainTaskId).any fun l => admits t wallet l && !p.hasConsensus l

/-- An attempt takes a worker that may join into the task. -/
def takes (t : Task) (wallet : String) (p : Pool) : Bool :=
  t.hasEnclaveChallenge && !p.locks.isHeld t.chainTaskId && p.hasRoom t wallet

/-- The outcome of an attempt: the worker is enrolled, or nothing changes but the locks. -/
structure Decided (p : Pool) (id wallet : String) (accepted : Bool) (q : Pool) : Prop where
  records : if accepted then p.Enrolled id wallet q else p.Likewise q
  others : q = { p with store := q.store, registry := q.registry, dispatcher := q.dispatcher }
  relocked : p.locks.Prompt → p.dispatcher.Relocked q.dispatcher

/-- An attempt that only looked decides against the worker. -/
theorem Decided.nothing (id wallet : String)
    (h : p.locks.Prompt → p.dispatcher.Relocked q.dispatcher)
    (hsame : p.Likewise q) : p.Decided id wallet false q := by
  refine ⟨hsame, ?_, h⟩
  unfold Likewise at hsame
  rw [hsame]

/-- A worker that is not in the list is added to it. -/
theorem attempt_addReplicate (hk : p.store.Keyed) {l : ReplicateList}
    (hl : p.store.list? t.chainTaskId = some l) (hn : l.hasWorker wallet = false) :
    p.attempt (certain (Collaborators.addReplicate l wallet)) =
      (.ok (.ok (l.plus p.now wallet t.chainTaskId)),
        { p with store := p.store.setList t.chainTaskId (l.plus p.now wallet t.chainTaskId) }) := by
  have hid : l.chainTaskId = t.chainTaskId := hk.list hl
  rw [← hid] at hl ⊢
  have hadd := p.writeStore_ok (Store.addReplicate_of_notMem p.now hl hn)
  exact congrArg (fun x => (Except.ok x.1, x.2)) hadd

/-- A known worker that is not in the list is enrolled. -/
theorem attempt_enrol (hk : p.store.Keyed) (hw : p.Welcome wallet) {l : ReplicateList}
    (hl : p.store.list? t.chainTaskId = some l) (hn : l.hasWorker wallet = false) :
    ∃ q, p.attempt (enrol t wallet l) = (.ok true, q) ∧ p.Enrolled t.chainTaskId wallet q ∧
      q = { p with store := q.store, registry := q.registry } := by
  have hadded := attempt_addReplicate hk hl hn
  set p' := { p with
    store := p.store.setList t.chainTaskId (l.plus p.now wallet t.chainTaskId) } with hp'
  obtain ⟨w, hw⟩ := hw.known
  obtain ⟨r', hr'⟩ := Registry.addTask_of_known hw t.chainTaskId
  have hwork : p'.attempt (certain (Collaborators.addWork wallet t.chainTaskId)) =
      (.ok (.ok ()), { p' with registry := r' }) :=
    congrArg (fun x => (Except.ok x.1, x.2)) (p'.writeRegistry_ok hr')
  -- both writes succeed, so the replicate is not taken back
  refine ⟨{ p' with registry := r' }, ?_, ⟨⟨l, hl, hn, rfl⟩, hr'⟩, rfl⟩
  unfold enrol
  rw [attempt_bind_ok hadded]
  dsimp only
  rw [attempt_bind_ok hwork]
  rfl

/-- Of a worker that nobody knows, nothing stays but the count of two changes of the list: the
replicate is added, the record of the work fails, and the replicate is removed. -/
theorem attempt_enrol_unknown (hk : p.store.Keyed) (hw : p.registry.worker? wallet = none)
    {l : ReplicateList} (hl : p.store.list? t.chainTaskId = some l)
    (hn : l.hasWorker wallet = false) :
    ∃ q, p.attempt (enrol t wallet l) = (.error (.store (.notFound "worker" wallet)), q) ∧
      p.TakenBack t.chainTaskId wallet q ∧ q = { p with store := q.store } := by
  have hadded := attempt_addReplicate hk hl hn
  set p' := { p with
    store := p.store.setList t.chainTaskId (l.plus p.now wallet t.chainTaskId) } with hp'
  have hwork : p'.attempt (certain (Collaborators.addWork wallet t.chainTaskId)) =
      (.ok (.error (.notFound "worker" wallet)), p') := by
    rcases p.registry.modify_cases wallet (·.addTask t.chainTaskId) with ⟨-, herror⟩ | ⟨r, hok, -⟩
    · exact congrArg (fun x => (Except.ok x.1, x.2)) (p'.writeRegistry_error herror)
    · rw [Registry.modify, hw] at hok
      exact absurd hok (by simp)
  refine ⟨(p'.removeReplicate t.chainTaskId wallet).2, ?_, ⟨⟨l, hl, hn, fun i => ?_⟩, ?_⟩, rfl⟩
  · unfold enrol
    rw [attempt_bind_ok hadded]
    dsimp only
    rw [attempt_bind_ok hwork]
    rfl
  · have hplus : p'.store.list? i = if t.chainTaskId = i then
        some (l.plus p.now wallet t.chainTaskId) else p.store.list? i := Store.list?_setList ..
    refine (Store.list?_removeReplicate _ _ _ i).trans ?_
    rw [hplus]
    by_cases hi : t.chainTaskId = i
    · rw [if_pos hi, if_pos hi, if_pos hi, Option.map_some, ReplicateList.without_plus hn]
    · rw [if_neg hi, if_neg hi, if_neg hi]
  · exact Store.tasks_removeReplicate _ _ _

/-- Without room nothing is written under the lock. -/
theorem attempt_decideLocked_of_full (h : p.hasRoom t wallet = false) :
    p.attempt (decideLocked t wallet) = (.ok false, p) := by
  have hget : p.attempt (stored (Collaborators.getList t.chainTaskId)) =
      (.ok (p.store.list? t.chainTaskId), p) := rfl
  unfold hasRoom at h
  unfold decideLocked
  rw [attempt_bind_ok hget]
  cases hl : p.store.list? t.chainTaskId with
  | none => rfl
  | some l =>
    rw [hl, Option.any_some] at h
    dsimp only
    rw [attempt_ite]
    cases hadmits : admits t wallet l with
    | false => rfl
    | true =>
      have hreached : p.attempt (certain (isConsensusReached l)) = (.ok true, p) := by
        rw [attempt_certain, perform_isConsensusReached]
        rw [hadmits, Bool.true_and, Bool.not_eq_false'] at h
        rw [h]
      rw [if_neg (by simp), attempt_bind_ok hreached]
      rfl

/-- With room the worker, which is not in the list, is to be enrolled. -/
theorem attempt_decideLocked_of_room (h : p.hasRoom t wallet = true) :
    ∃ l, p.store.list? t.chainTaskId = some l ∧ l.hasWorker wallet = false ∧
      p.attempt (decideLocked t wallet) = p.attempt (enrol t wallet l) := by
  obtain ⟨l, hl, hroom⟩ := (Option.any_eq_true ..).1 h
  rw [Bool.and_eq_true, Bool.not_eq_true'] at hroom
  obtain ⟨hadmits, hunsettled⟩ := hroom
  have hn : l.hasWorker wallet = false := by
    unfold admits at hadmits
    rw [Bool.and_eq_true, Bool.not_eq_true'] at hadmits
    exact hadmits.1
  have hget : p.attempt (stored (Collaborators.getList t.chainTaskId)) = (.ok (some l), p) := by
    rw [← hl]
    rfl
  have hreached : p.attempt (certain (isConsensusReached l)) = (.ok false, p) := by
    rw [attempt_certain, perform_isConsensusReached, hunsettled]
  refine ⟨l, hl, hn, ?_⟩
  unfold decideLocked
  rw [attempt_bind_ok hget]
  dsimp only
  rw [attempt_ite, hadmits, if_neg (by simp), attempt_bind_ok hreached]
  rfl

/-- An attempt at a task that does not take the worker changes nothing but the locks. -/
theorem attempt_acceptOrReject_of_not_takes (hallowed : p.registry.isAllowed wallet = true)
    (h : p.takes t wallet = false) :
    ∃ q, p.attempt (acceptOrReject t wallet) = (.ok false, q) ∧ p.Likewise q ∧
      (p.locks.Prompt → p.dispatcher.Relocked q.dispatcher) := by
  have hjoin : p.attempt (stored (Collaborators.isAllowedToJoin wallet)) = (.ok true, p) := by
    rw [← hallowed]
    rfl
  have hget : p.attempt (stored (Collaborators.getList t.chainTaskId)) =
      (.ok (p.store.list? t.chainTaskId), p) := rfl
  have hlock : p.attempt (certain (Collaborators.tryLock t.chainTaskId)) =
      (.ok (p.tryLock t.chainTaskId).1, (p.tryLock t.chainTaskId).2) := rfl
  unfold takes at h
  unfold acceptOrReject
  rw [attempt_bind_ok hjoin, attempt_ite, if_neg (by simp), attempt_ite]
  cases hchallenge : t.hasEnclaveChallenge with
  | false => exact ⟨p, rfl, .refl p, fun _ => .refl _⟩
  | true =>
    rw [if_neg (by simp), attempt_bind_ok hget]
    cases hl : p.store.list? t.chainTaskId with
    | none => exact ⟨p, rfl, .refl p, fun _ => .refl _⟩
    | some l =>
      dsimp only
      rw [attempt_ite]
      cases hin : l.hasWorker wallet with
      | true => exact ⟨p, rfl, .refl p, fun _ => .refl _⟩
      | false =>
        rw [if_neg (by simp), attempt_bind_ok hlock]
        cases hheld : p.locks.isHeld t.chainTaskId with
        | true =>
          obtain ⟨hnone, hrelocked⟩ :=
            Dispatcher.tryAcquire_of_held (d := p.dispatcher) p.now hheld
          have hnone : (p.tryLock t.chainTaskId).1 = none := hnone
          rw [hnone]
          exact ⟨_, rfl, rfl, fun _ => hrelocked⟩
        | false =>
          obtain ⟨ticket, hticket⟩ := Locks.tryAcquire_of_free p.now t.chainTaskId hheld
          have hticket : (p.tryLock t.chainTaskId).1 = some ticket := hticket
          rw [hchallenge, hheld, Bool.not_false, Bool.true_and, Bool.true_and] at h
          have hfull : (p.tryLock t.chainTaskId).2.hasRoom t wallet = false := h
          have hrun : (p.tryLock t.chainTaskId).2.attempt (certain (decideLocked t wallet).run) =
              (.ok (.ok false), (p.tryLock t.chainTaskId).2) := by
            rw [attempt_certain, perform_run, attempt_decideLocked_of_full hfull]
          rw [hticket]
          dsimp only
          rw [attempt_bind_ok hrun]
          refine ⟨(p.tryLock t.chainTaskId).2.unlock ticket, rfl, rfl, fun hprompt => ?_⟩
          -- the lock that was taken is given back
          obtain ⟨ticket', hticket', hrelocked⟩ :=
            Dispatcher.release_tryAcquire (d := p.dispatcher) p.now hprompt hheld
          obtain rfl := Option.some.inj (hticket.symm.trans hticket')
          exact hrelocked

/-- An attempt at a task that takes the worker ends as it is decided under the lock, which is given
back. -/
theorem attempt_acceptOrReject_of_takes (hallowed : p.registry.isAllowed wallet = true)
    (h : p.takes t wallet = true) {r : Except PoolError Bool}
    (hdecided : (p.tryLock t.chainTaskId).2.attempt (decideLocked t wallet) = (r, q)) :
    ∃ ticket, p.attempt (acceptOrReject t wallet) = (r, q.unlock ticket) ∧
      (p.locks.Prompt →
        p.dispatcher.Relocked ((p.tryLock t.chainTaskId).2.dispatcher.release ticket)) := by
  unfold takes at h
  rw [Bool.and_eq_true, Bool.and_eq_true, Bool.not_eq_true'] at h
  obtain ⟨⟨hchallenge, hheld⟩, hroom⟩ := h
  obtain ⟨l, hl, hin, -⟩ := attempt_decideLocked_of_room hroom
  have hjoin : p.attempt (stored (Collaborators.isAllowedToJoin wallet)) = (.ok true, p) := by
    rw [← hallowed]
    rfl
  have hget : p.attempt (stored (Collaborators.getList t.chainTaskId)) = (.ok (some l), p) := by
    rw [← hl]
    rfl
  obtain ⟨ticket, hticket⟩ := Locks.tryAcquire_of_free p.now t.chainTaskId hheld
  have hlock : p.attempt (certain (Collaborators.tryLock t.chainTaskId)) =
      (.ok (some ticket), (p.tryLock t.chainTaskId).2) :=
    congrArg (fun x => (Except.ok x, (p.tryLock t.chainTaskId).2)) hticket
  have hrun : (p.tryLock t.chainTaskId).2.attempt (certain (decideLocked t wallet).run) =
      (.ok r, q) := by
    rw [attempt_certain, perform_run, hdecided]
  refine ⟨ticket, ?_, fun hprompt => ?_⟩
  · unfold acceptOrReject
    rw [attempt_bind_ok hjoin, attempt_ite, if_neg (by simp), attempt_ite, hchallenge,
      if_neg (by simp), attempt_bind_ok hget]
    dsimp only
    rw [attempt_ite, hin, if_neg (by simp), attempt_bind_ok hlock]
    dsimp only
    rw [attempt_bind_ok hrun]
    rfl
  · obtain ⟨ticket', hticket', hrelocked⟩ :=
      Dispatcher.release_tryAcquire (d := p.dispatcher) p.now hprompt hheld
    obtain rfl := Option.some.inj (hticket.symm.trans hticket')
    exact hrelocked

/-- A worker that may join is enrolled if the task takes it, and else nothing changes but the
locks. -/
theorem attempt_acceptOrReject (hk : p.store.Keyed) (hw : p.Welcome wallet) (t : Task) :
    ∃ q, p.attempt (acceptOrReject t wallet) = (.ok (p.takes t wallet), q) ∧
      p.Decided t.chainTaskId wallet (p.takes t wallet) q := by
  have hlocked : p.Likewise (p.tryLock t.chainTaskId).2 := rfl
  cases htakes : p.takes t wallet with
  | false =>
    obtain ⟨q, hq, hsame, hrelocked⟩ := attempt_acceptOrReject_of_not_takes hw.allowed htakes
    exact ⟨q, hq, .nothing _ _ hrelocked hsame⟩
  | true =>
    have hroom : (p.tryLock t.chainTaskId).2.hasRoom t wallet = true := by
      unfold takes at htakes
      rw [Bool.and_eq_true] at htakes
      exact htakes.2
    obtain ⟨l, hl, hn, hdecide⟩ := attempt_decideLocked_of_room hroom
    obtain ⟨q, hq, henrolled, hothers⟩ :=
      attempt_enrol (hlocked.keyed hk) (hlocked.welcome hw) hl hn
    obtain ⟨ticket, hattempt, hrelocked⟩ :=
      attempt_acceptOrReject_of_takes hw.allowed htakes (hdecide.trans hq)
    refine ⟨q.unlock ticket, hattempt, ?_, ?_, fun hprompt => ?_⟩
    · have hunlocked : q.Likewise (q.unlock ticket) := rfl
      rw [if_pos rfl]
      exact (henrolled.likewise hunlocked).of_likewise hlocked
    · rw [hothers]
      rfl
    · rw [hothers]
      exact hrelocked hprompt

/-- No attempt fails, so the first one decides. -/
theorem perform_admitRepeatedly (hk : p.store.Keyed) (hw : p.Welcome wallet) (t : Task)
    (attempts : Nat) :
    ∃ q, p.perform (admitRepeatedly t wallet (attempts + 1)) = (p.takes t wallet, q) ∧
      p.Decided t.chainTaskId wallet (p.takes t wallet) q := by
  obtain ⟨q, hq, hdecided⟩ := attempt_acceptOrReject hk hw t
  refine ⟨q, ?_, hdecided⟩
  unfold admitRepeatedly
  rw [perform_bind, perform_run, hq]
  rfl

/-- A worker that may not join is removed. -/
theorem attempt_acceptOrReject_banned (hban : p.registry.isAllowed wallet = false) (t : Task) :
    p.attempt (acceptOrReject t wallet) = (.ok false, (p.removeWorker wallet).2) := by
  have hallowed : p.attempt (stored (Collaborators.isAllowedToJoin wallet)) = (.ok false, p) := by
    rw [← hban]
    rfl
  unfold acceptOrReject
  rw [attempt_bind_ok hallowed, attempt_ite, if_pos (by simp)]
  rfl

/-- A worker that may not join is removed at the first attempt, and there is no second. -/
theorem perform_admitRepeatedly_banned (hban : p.registry.isAllowed wallet = false) (t : Task)
    (attempts : Nat) :
    p.perform (admitRepeatedly t wallet (attempts + 1)) = (false, (p.removeWorker wallet).2) := by
  unfold admitRepeatedly
  rw [perform_bind, perform_run, attempt_acceptOrReject_banned hban]
  rfl

/-! ## All open tasks -/

/-- How the open tasks are tried: the best first, each of them once, until one takes the worker. -/
inductive Scans (w : Worker) (wallet : String) (attempts : Nat) :
    (scanned : List String) → Pool → Option Authorization → Pool → Prop where
  /-- No task is left. -/
  | exhausted {scanned : List String} {p : Pool}
      (best : p.store.bestOpenTask? (!w.teeEnabled) scanned = none) :
      Scans w wallet attempts scanned p none p
  | taken {scanned : List String} {p q : Pool} {t : Task}
      (best : p.store.bestOpenTask? (!w.teeEnabled) scanned = some t)
      (accepted : p.perform (admitRepeatedly t wallet attempts) = (true, q)) :
      Scans w wallet attempts scanned p
        (some (q.signer.authorize wallet t.chainTaskId t.enclaveChallenge)) q
  | passed {scanned : List String} {p q r : Pool} {t : Task} {answer : Option Authorization}
      (best : p.store.bestOpenTask? (!w.teeEnabled) scanned = some t)
      (refused : p.perform (admitRepeatedly t wallet attempts) = (false, q))
      (rest : Scans w wallet attempts (scanned ++ [t.chainTaskId]) q answer r) :
      Scans w wallet attempts scanned p answer r

variable {w : Worker} {attempts : Nat} {scanned : List String} {answer : Option Authorization}

/-- The scan never fails, and its rounds are enough for all the open tasks. -/
theorem attempt_scan (w : Worker) (wallet : String) (attempts : Nat) (scanned : List String)
    {rounds : Nat}
    (hrounds : (p.store.openTasks (!w.teeEnabled) scanned).length < rounds) :
    ∃ answer q, p.attempt (scan w wallet attempts rounds scanned) = (.ok answer, q) ∧
      Scans w wallet attempts scanned p answer q := by
  induction rounds generalizing p scanned with
  | zero => exact absurd hrounds (Nat.not_lt_zero _)
  | succ rounds ih =>
    have hbest : p.attempt (stored (Collaborators.bestOpenTask (!w.teeEnabled) scanned)) =
        (.ok (p.store.bestOpenTask? (!w.teeEnabled) scanned), p) := rfl
    unfold scan
    rw [attempt_bind_ok hbest]
    cases ht : p.store.bestOpenTask? (!w.teeEnabled) scanned with
    | none => exact ⟨none, p, rfl, .exhausted ht⟩
    | some t =>
      rcases hq : p.perform (admitRepeatedly t wallet attempts) with ⟨accepted, q⟩
      have htried : p.attempt (certain (admitRepeatedly t wallet attempts)) =
          (.ok accepted, q) := by
        rw [attempt_certain, hq]
      dsimp only
      rw [attempt_bind_ok htried, attempt_ite]
      cases accepted with
      | true => exact ⟨_, q, rfl, .taken ht hq⟩
      | false =>
        -- the attempt changed no task, so there is one less to try
        have htasks := (admitRepeatedly_admits t wallet attempts p).unchanged
          (f := (·.store.tasks)) fun s hs r => Step.tasks_apply (Step.Admits.not_writesTasks hs) r
        have hfewer : (q.store.openTasks (!w.teeEnabled) (scanned ++ [t.chainTaskId])).length <
            rounds := by
          have hlt := Store.length_openTasks_append_lt ht
          rw [hq] at htasks
          unfold Store.openTasks at hlt hrounds ⊢
          rw [htasks]
          omega
        obtain ⟨answer, r, hr, hscans⟩ := ih (p := q) (scanned ++ [t.chainTaskId]) hfewer
        exact ⟨answer, r, hr, .passed ht hq hscans⟩

/-- What became of a worker that asked for work. -/
inductive Found (p : Pool) (wallet : String) (q : Pool) : Prop where
  /-- Nothing changed but the locks. -/
  | nothing (same : p.Likewise q)
  /-- The worker may not join, and is removed. -/
  | removed (banned : p.registry.isAllowed wallet = false)
      (pool : q = { p with registry := p.registry.remove wallet })
  /-- The worker was enrolled in an open task. -/
  | enrolled (t : Task) (welcome : p.Welcome wallet) (free : p.registry.canAccept wallet = true)
      (stored : p.store.task? t.chainTaskId = some t) (isOpen : t.status.isOpen = true)
      (enrolled : p.Enrolled t.chainTaskId wallet q)

/-- Without an attempt at a task nobody is let in, and nothing changes. -/
theorem Scans.of_no_attempts (h : Scans w wallet 0 scanned p answer q) :
    answer = none ∧ q = p := by
  induction h with
  | exhausted => exact ⟨rfl, rfl⟩
  | taken _ accepted => exact absurd (congrArg Prod.fst accepted) (by simp [admitRepeatedly])
  | passed _ refused _ ih =>
    obtain rfl := congrArg Prod.snd refused
    exact ih

/-- A worker that may join is enrolled in one open task, or in none. -/
theorem Scans.found (h : Scans w wallet (attempts + 1) scanned p answer q) (hk : p.store.Keyed)
    (hw : p.Welcome wallet) (hfree : p.registry.canAccept wallet = true) : p.Found wallet q := by
  induction h with
  | @exhausted scanned p best => exact .nothing (.refl p)
  | @taken scanned p q t best accepted =>
    obtain ⟨q', hq', hdecided⟩ := perform_admitRepeatedly hk hw t attempts
    obtain ⟨htakes, rfl⟩ := Prod.mk.inj (hq'.symm.trans accepted)
    obtain ⟨hstored, hopen⟩ := hk.bestOpenTask? best
    have henrolled := hdecided.records
    rw [if_pos htakes] at henrolled
    exact .enrolled t hw hfree hstored hopen henrolled
  | @passed scanned p q r t answer best refused rest ih =>
    obtain ⟨q', hq', hdecided⟩ := perform_admitRepeatedly hk hw t attempts
    obtain ⟨htakes, rfl⟩ := Prod.mk.inj (hq'.symm.trans refused)
    have hsame := hdecided.records
    rw [htakes] at hsame
    -- nothing changed but the locks, so the rest is tried in the same pool
    have hsame : p.Likewise q' := hsame
    have hfree' : q'.registry.canAccept wallet = true := by
      rw [hsame]
      exact hfree
    cases ih (hsame.keyed hk) (hsame.welcome hw) hfree' with
    | nothing same => exact .nothing (hsame.trans same)
    | removed banned _ =>
      have hallowed := (hsame.welcome hw).allowed
      exact absurd (hallowed.symm.trans banned) (by simp)
    | enrolled t' _ _ hstored' hopen' henrolled =>
      refine .enrolled t' hw hfree ?_ hopen' (henrolled.of_likewise hsame)
      rw [hsame] at hstored'
      exact hstored'

/-- A worker that may not join is removed by the first open task that is tried, and gets none.
Removing it once more changes nothing. -/
theorem Scans.banned (h : Scans w wallet (attempts + 1) scanned p answer q)
    (hban : p.registry.isAllowed wallet = false) :
    answer = none ∧ q = if p.store.openTasks (!w.teeEnabled) scanned = [] then p
      else (p.removeWorker wallet).2 := by
  induction h with
  | @exhausted scanned p best => exact ⟨rfl, (if_pos (Task.best?_eq_none.1 best)).symm⟩
  | @taken scanned p q t best accepted =>
    have hrefused := perform_admitRepeatedly_banned hban t attempts
    exact absurd (congrArg Prod.fst (hrefused.symm.trans accepted)) (by simp)
  | @passed scanned p q r t answer best refused rest ih =>
    have hsome : p.store.openTasks (!w.teeEnabled) scanned ≠ [] := by
      intro hnil
      exact absurd ((Task.best?_eq_none.2 hnil).symm.trans best) (by simp)
    have hrefused := perform_admitRepeatedly_banned hban t attempts
    obtain rfl := congrArg Prod.snd (hrefused.symm.trans refused)
    obtain ⟨hnone, hr⟩ := ih hban
    have hagain : ((p.removeWorker wallet).2.removeWorker wallet).2 =
        (p.removeWorker wallet).2 := by
      unfold removeWorker
      rw [Registry.remove_remove]
    refine ⟨hnone, hr.trans ?_⟩
    rw [if_neg hsome]
    split
    · rfl
    · exact hagain

/-! ## The request -/

/-- The worker has a free slot and gas enough, and has seen a block. -/
structure IsReady (p : Pool) (lastBlock : UInt64) (w : Worker) : Prop where
  slot : w.hasFreeSlot = true
  gas : p.registry.minGas ≤ w.gas
  synchronized : lastBlock ≠ 0

/-- A worker that is unknown or not ready gets nothing, and nothing changes. -/
theorem attempt_findAuthorization_unready {lastBlock : UInt64}
    (h : ∀ w, p.registry.worker? wallet = some w → ¬ p.IsReady lastBlock w) :
    p.attempt (findAuthorization lastBlock wallet) = (.ok none, p) := by
  have haccept : p.attempt (stored (Collaborators.canAcceptMoreWork wallet)) =
      (.ok (p.registry.canAccept wallet), p) := rfl
  have hgas : p.attempt (stored (Collaborators.hasEnoughGas wallet)) =
      (.ok (p.registry.hasEnoughGas wallet), p) := rfl
  unfold findAuthorization
  rw [attempt_bind_ok haccept, attempt_ite]
  split
  · rfl
  next hslot =>
  rw [attempt_ite]
  split
  · rfl
  next hblock =>
  rw [attempt_bind_ok hgas, attempt_ite]
  split
  · rfl
  next henough =>
  -- the worker passed all that it is asked for, so it is known and ready
  unfold Registry.canAccept at hslot
  unfold Registry.hasEnoughGas at henough
  cases hw : p.registry.worker? wallet with
  | none => exact absurd rfl (hw ▸ hslot)
  | some w =>
    rw [hw, Option.any_some] at hslot henough
    exact absurd ⟨by simpa using hslot, by simpa using henough, hblock⟩ (h w hw)

/-- A worker that is ready is tried with all the open tasks. -/
theorem attempt_findAuthorization {lastBlock : UInt64} (hw : p.registry.worker? wallet = some w)
    (hready : p.IsReady lastBlock w) :
    ∃ answer q, p.attempt (findAuthorization lastBlock wallet) = (.ok answer, q) ∧
      Scans w wallet p.maxAttempts [] p answer q := by
  have haccept : p.attempt (stored (Collaborators.canAcceptMoreWork wallet)) = (.ok true, p) := by
    rw [attempt_stored, perform_canAcceptMoreWork, Registry.canAccept, hw, Option.any_some,
      hready.slot]
    rfl
  have hgas : p.attempt (stored (Collaborators.hasEnoughGas wallet)) = (.ok true, p) := by
    rw [attempt_stored, perform_hasEnoughGas, Registry.hasEnoughGas, hw, Option.any_some,
      decide_eq_true hready.gas]
    rfl
  have hworker : p.attempt (stored (Collaborators.getWorker wallet)) = (.ok (some w), p) := by
    rw [← hw]
    rfl
  have hrounds : (p.store.openTasks (!w.teeEnabled) []).length < p.store.tasks.size + 1 :=
    Nat.lt_succ_of_le (Nat.le_trans (List.length_filter_le _ _) (Nat.le_of_eq (List.length_map _)))
  unfold findAuthorization
  rw [attempt_bind_ok haccept, attempt_ite, if_neg (by simp), attempt_ite,
    if_neg hready.synchronized, attempt_bind_ok hgas, attempt_ite, if_neg (by simp),
    attempt_bind_ok hworker]
  exact attempt_scan w wallet p.maxAttempts [] hrounds

/-- A worker that asks for work ends up in one of three ways. -/
theorem found (hk : p.store.Keyed) (lastBlock : UInt64) (wallet : String) :
    p.Found wallet (p.attempt (findAuthorization lastBlock wallet)).2 := by
  by_cases hready : ∃ w, p.registry.worker? wallet = some w ∧ p.IsReady lastBlock w
  · obtain ⟨w, hw, hready⟩ := hready
    obtain ⟨answer, q, hq, hscans⟩ := attempt_findAuthorization hw hready
    rw [hq]
    have hfree : p.registry.canAccept wallet = true := by
      rw [Registry.canAccept, hw, Option.any_some, hready.slot]
    cases hmax : p.maxAttempts with
    | zero =>
      rw [hmax] at hscans
      rw [hscans.of_no_attempts.2]
      exact .nothing (.refl p)
    | succ attempts =>
      rw [hmax] at hscans
      cases hallowed : p.registry.isAllowed wallet with
      | true => exact hscans.found hk ⟨⟨w, hw⟩, hallowed⟩ hfree
      | false =>
        rw [(hscans.banned hallowed).2]
        split
        · exact .nothing (.refl p)
        · exact .removed hallowed rfl
  · rw [attempt_findAuthorization_unready fun w hw h => hready ⟨w, hw, h⟩]
    exact .nothing (.refl p)

end Pool

end ComputePool
