import ComputePool.Proofs.Recovery.Advice

/-!
# What a worker missed

A worker that comes back is told about each task of its record, one after the other. For one task
(`Pool.notice?`, `Pool.noticed`) recovery looks at the replicate of the worker, if it can still be
resumed, tells what the table says, and leaves its mark.

What is told about a task depends on its own list, the stored tasks, the chain and the signer, and
on nothing else (`Pool.notice?_congr`). A recovery only changes replicates of the task it is about
and the dispatcher (`Pool.Recovered`, `Pool.list?_noticed_of_ne`), so the tasks of a worker do not
interfere.
-/

namespace ComputePool

namespace Pool

/-- The replicate of the worker, if the worker may resume it. -/
def resumable? (t : Task) (wallet : String) (p : Pool) : Option Replicate :=
  (p.store.replicate? t.chainTaskId wallet).filter (·.isRecoverable)

/-- What the worker is told about a task. -/
def notice? (t : Task) (wallet : String) (block : UInt64) (p : Pool) : Option Notification :=
  (p.resumable? t wallet).bind fun r =>
    (p.advice t r block).map fun i =>
      .forWorker t.chainTaskId wallet i (t.extraFor p.signer wallet i)

/-- The pool once the worker was told about a task. -/
def noticed (t : Task) (wallet : String) (block : UInt64) (p : Pool) : Pool :=
  match p.resumable? t wallet with
  | none => p
  | some r =>
    if (p.advice t r block).isSome then (p.advised t r block).marked t.chainTaskId wallet
    else p.advised t r block

variable {p q : Pool} {t : Task} {r : Replicate} {wallet : String} {block : UInt64}

/-! ## One task -/

/-- Who can resume has a replicate in the records that can be recovered. -/
theorem resumable?_eq_some (h : p.resumable? t wallet = some r) :
    p.store.replicate? t.chainTaskId r.wallet = some r ∧ r.wallet = wallet ∧
      r.isRecoverable = true := by
  obtain ⟨hr, hresumable⟩ := Option.filter_eq_some_iff.1 h
  obtain ⟨l, -, hfind⟩ := Option.bind_eq_some_iff.1 hr
  obtain ⟨hwallet, -⟩ := ReplicateList.report_eq_append hfind
  exact ⟨hwallet.symm ▸ hr, hwallet, hresumable⟩

/-- A notice is about the task that was gone through, in which the worker has a replicate. -/
theorem notice?_chainTaskId {n : Notification} (h : p.notice? t wallet block = some n) :
    n.chainTaskId = t.chainTaskId ∧ (p.store.replicate? n.chainTaskId wallet).isSome := by
  obtain ⟨r, hr, hn⟩ := Option.bind_eq_some_iff.1 h
  obtain ⟨i, -, rfl⟩ := Option.map_eq_some_iff.1 hn
  obtain ⟨hstored, hwallet, -⟩ := resumable?_eq_some hr
  rw [hwallet] at hstored
  exact ⟨rfl, Option.isSome_iff_exists.2 ⟨r, hstored⟩⟩

/-- For one task the service gives the notice that is due, and leaves the pool so noticed. -/
theorem attempt_missedIn (p : Pool) (t : Task) (wallet : String) (block : UInt64) :
    p.attempt (missedIn t wallet block) =
      (.ok (p.notice? t wallet block), p.noticed t wallet block) := by
  have hget : p.attempt (stored (Collaborators.getReplicate t.chainTaskId wallet)) =
      (.ok (p.store.replicate? t.chainTaskId wallet), p) := rfl
  unfold missedIn notice? noticed
  rw [attempt_bind_ok hget]
  cases hresumable : p.resumable? t wallet with
  | none =>
    rw [resumable?, Option.filter_eq_none_iff] at hresumable
    cases hr : p.store.replicate? t.chainTaskId wallet with
    | none => rfl
    | some r =>
      have hlost := hresumable r hr
      dsimp only
      rw [attempt_ite, if_pos (by simpa using hlost)]
      rfl
  | some r =>
    obtain ⟨hr, hwallet, hrecoverable⟩ := resumable?_eq_some hresumable
    rw [← hwallet, hr]
    dsimp only
    rw [attempt_ite, if_neg (by simp [hrecoverable]),
      attempt_bind_ok (attempt_instructionFor hr block), Option.bind_some]
    cases hadvice : p.advice t r block with
    | none => rfl
    | some i =>
      have hextra : (p.advised t r block).attempt (certain (extraOf t r.wallet i)) =
          (.ok (t.extraFor p.signer r.wallet i), p.advised t r block) := by
        rw [attempt_certain, perform_extraOf hadvice,
          (Recovered.of_leads (p.leads_advised t r block)).signer]
      dsimp only
      rw [attempt_bind_ok hextra]
      rfl

/-- A notice is made of steps of a recovery. -/
theorem leads_noticed (p : Pool) (t : Task) (wallet : String) (block : UInt64) :
    p.Leads Step.Recovers (p.noticed t wallet block) := by
  have hleads := missedIn_recovers t wallet block p
  rw [attempt_missedIn] at hleads
  exact hleads

/-- A notice leaves alone all that recoveries leave alone. -/
theorem recovered_noticed (p : Pool) (t : Task) (wallet : String) (block : UInt64) :
    p.Recovered (p.noticed t wallet block) := .of_leads (p.leads_noticed t wallet block)

/-! ## The lists -/

/-- A request for an update changes no list. -/
theorem list?_advised (p : Pool) (t : Task) (r : Replicate) (block : UInt64) (id : String) :
    (p.advised t r block).store.list? id = (p.caughtUp t r block).store.list? id := by
  unfold advised
  split
  · rw [after_publish]
  · rfl

/-- A mark is left on the replicate of the worker, in the list of the task. -/
theorem list?_marked (p : Pool) (id wallet i : String) :
    (p.marked id wallet).store.list? i =
      if id = i then (p.store.list? i).map (·.marked p.now wallet) else p.store.list? i :=
  p.store.list?_updateReplicate id wallet (.byPool p.now .recovering none) i

/-- A mark is a step of a recovery. -/
theorem leads_marked (p : Pool) (id wallet : String) :
    p.Leads Step.Recovers (p.marked id wallet) :=
  .single (s := .updateReplicate id wallet (.byPool p.now .recovering none)) trivial p

/-- What a worker is told about one task leaves the lists of the others. -/
theorem list?_noticed_of_ne (p : Pool) (wallet : String) (block : UInt64) {id : String}
    (hid : t.chainTaskId ≠ id) :
    (p.noticed t wallet block).store.list? id = p.store.list? id := by
  have hadvised : ∀ r, (p.advised t r block).store.list? id = p.store.list? id := fun r => by
    rw [list?_advised, list?_caughtUp, if_neg hid]
  unfold noticed
  split
  · rfl
  · next r _ =>
    split
    · rw [list?_marked, if_neg hid, hadvised]
    · exact hadvised r

/-! ## What is read -/

/-- Which report was missed is read off the chain, so what was done for other tasks does not matter.
-/
theorem catchUp?_congr (h : p.Recovered q) : q.catchUp? t r block = p.catchUp? t r block := by
  unfold catchUp?
  rw [h.chain, h.now]

/-- What is told depends on the list of the task, and on nothing else that a recovery changes. -/
theorem advice_congr (h : p.Recovered q)
    (hlist : q.store.list? t.chainTaskId = p.store.list? t.chainTaskId) :
    q.advice t r block = p.advice t r block := by
  have hcatchUp : q.catchUp? t r block = p.catchUp? t r block := catchUp?_congr h
  have hstanding : q.standing? t r block = p.standing? t r block := by
    unfold standing?
    rw [hcatchUp]
  have hagreed : q.isAgreed t r block = p.isAgreed t r block := by
    unfold isAgreed
    rw [list?_caughtUp, list?_caughtUp, hcatchUp, hlist]
    congr 1
    funext l
    exact h.hasConsensus l
  have hcompletion : q.completion? r = p.completion? r := by
    unfold completion? Store.task?
    rw [h.tasks]
  unfold advice
  rw [hstanding, hagreed, hcompletion]

/-- Who can resume depends on the list of the task alone. -/
theorem resumable?_congr (hlist : q.store.list? t.chainTaskId = p.store.list? t.chainTaskId) :
    q.resumable? t wallet = p.resumable? t wallet := by
  unfold resumable? Store.replicate?
  rw [hlist]

/-- The notice is the same as long as only recoveries come in between. -/
theorem notice?_congr (h : p.Recovered q)
    (hlist : q.store.list? t.chainTaskId = p.store.list? t.chainTaskId) :
    q.notice? t wallet block = p.notice? t wallet block := by
  unfold notice?
  rw [resumable?_congr hlist, h.signer]
  congr 1
  funext r
  rw [advice_congr h hlist]

/-! ## All tasks -/

/-- What the worker is told about some tasks, one after the other. -/
def notices (wallet : String) (block : UInt64) : List Task → Pool → List Notification
  | [], _ => []
  | t :: rest, p =>
    (p.notice? t wallet block).toList ++ notices wallet block rest (p.noticed t wallet block)

/-- The first task has its notice, and then the others have theirs in the pool it leaves. -/
theorem notices_cons (p : Pool) (wallet : String) (block : UInt64) (t : Task) (rest : List Task) :
    p.notices wallet block (t :: rest) =
      (p.notice? t wallet block).toList ++ (p.noticed t wallet block).notices wallet block rest :=
  rfl

/-- The pool once the worker was told about some tasks. -/
def noticedAll (wallet : String) (block : UInt64) : List Task → Pool → Pool
  | [], p => p
  | t :: rest, p => noticedAll wallet block rest (p.noticed t wallet block)

/-- The service goes through the tasks in turn and gives the notices that are due. -/
theorem attempt_missedInAll (p : Pool) (wallet : String) (block : UInt64) (ts : List Task) :
    p.attempt (missedInAll wallet block ts) =
      (.ok (p.notices wallet block ts), p.noticedAll wallet block ts) := by
  induction ts generalizing p with
  | nil => rfl
  | cons t rest ih =>
    unfold missedInAll
    rw [attempt_bind_ok (p.attempt_missedIn t wallet block),
      attempt_bind_ok (ih (p.noticed t wallet block))]
    rfl

/-- All notices together are made of steps of a recovery. -/
theorem leads_noticedAll (p : Pool) (wallet : String) (block : UInt64) (ts : List Task) :
    p.Leads Step.Recovers (p.noticedAll wallet block ts) := by
  have hleads := missedInAll_recovers wallet block ts p
  rw [attempt_missedInAll] at hleads
  exact hleads

/-- What the worker is told was told about one of the tasks, on the way. -/
theorem mem_notices {n : Notification} {ts : List Task} (h : n ∈ p.notices wallet block ts) :
    ∃ q, ∃ t ∈ ts, p.Leads Step.Recovers q ∧ q.notice? t wallet block = some n ∧
      (q.noticed t wallet block).Leads Step.Recovers (p.noticedAll wallet block ts) := by
  induction ts generalizing p with
  | nil => exact absurd h List.not_mem_nil
  | cons t rest ih =>
    rw [notices_cons, List.mem_append, Option.mem_toList] at h
    rcases h with h | h
    · exact ⟨p, t, List.mem_cons_self, .refl p, h, leads_noticedAll _ wallet block rest⟩
    · obtain ⟨q, u, hu, hq, hn, hrest⟩ := ih h
      exact ⟨q, u, List.mem_cons_of_mem t hu, (p.leads_noticed t wallet block).trans hq, hn, hrest⟩

/-- The tasks of a worker's record. -/
def tasksOf (wallet : String) (p : Pool) : List Task :=
  p.store.tasksOf (p.registry.taskIds wallet)

/-- The tasks that are gone through are the stored ones. -/
theorem task?_of_mem_tasksOf (hp : p.store.Keyed) (ht : t ∈ p.tasksOf wallet) :
    p.store.task? t.chainTaskId = some t := by
  obtain ⟨id, -, hid⟩ := List.mem_filterMap.1 ht
  rw [hp.task hid]
  exact hid

/-- Recovery tells a worker of all its tasks, in their order. -/
theorem attempt_missedNotifications (p : Pool) (block : UInt64) (wallet : String) :
    p.attempt (missedNotifications block wallet) =
      (.ok (p.notices wallet block (p.tasksOf wallet)),
        p.noticedAll wallet block (p.tasksOf wallet)) := by
  have hids : p.attempt (stored (Collaborators.workIds wallet)) =
      (.ok (p.registry.taskIds wallet), p) := rfl
  have htasks : p.attempt (stored (Collaborators.getTasks (p.registry.taskIds wallet))) =
      (.ok (p.tasksOf wallet), p) := rfl
  unfold missedNotifications
  rw [attempt_bind_ok hids, attempt_bind_ok htasks]
  exact p.attempt_missedInAll wallet block _

/-- What a worker that came back was answered is what it is told about its tasks. -/
theorem eq_notices_of_attempt {ns : List Notification}
    (h : p.attempt (missedNotifications block wallet) = (.ok ns, q)) :
    ns = p.notices wallet block (p.tasksOf wallet) := by
  rw [attempt_missedNotifications] at h
  exact (Except.ok.inj (congrArg Prod.fst h)).symm

end Pool

end ComputePool
