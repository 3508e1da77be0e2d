import ComputePool.Proofs.Draining.Call
import ComputePool.Proofs.Draining.TaskFile

/-!
# Draining the queue

The consumer takes requests out of the queue, in whatever order, and serves each; `p.Drains n k q`
says that `n` calls of which `k` applied a transition lead from `p` to `q`. Nothing else happens in
between.

Draining ends (`Drains.calls_add_size`, `Drains.applied_add_left_le`): an idle call shortens the
queue, and a moving call uses up one of the moves that are left. A task leaves the queue only when
no move of it is due, and the calls for other tasks bring it none (`Drains.not_due`).

Where it ends does not depend on the order. Each task has its own `TaskFile`, a moving call
advances the file of its task and no other, and so after any calls every task is where its own
file gets by as many updates as it had (`Drains.traced`). The registry follows the files: a worker
computes what it computed before, less the tasks that freed it. Once the queue is empty every
queued task has settled, and a task settles in one way.
-/

namespace ComputePool

namespace Worker

/-- The worker, computing only the tasks that pass a test. -/
def keeping (f : String → Bool) (w : Worker) : Worker :=
  { w with computing := w.computing.filter f }

/-- A worker all of whose tasks pass the test keeps all of them. -/
theorem keeping_of_all {f : String → Bool} (w : Worker) (h : ∀ id ∈ w.computing, f id = true) :
    w.keeping f = w := by
  unfold keeping
  rw [List.filter_eq_self.2 h]

/-- A slot that is freed is one test more. -/
theorem releaseTask_keeping {f g : String → Bool} {id : String} (w : Worker)
    (h : ∀ i, g i = (f i && i != id)) : (w.keeping f).releaseTask id = w.keeping g := by
  unfold keeping releaseTask
  rw [List.filter_filter]
  congr 1
  exact List.filter_congr fun i _ => by rw [h, Bool.and_comm]

end Worker

namespace Pool

/-- So many calls, of which so many applied a transition, lead from one pool to another. -/
inductive Drains (p : Pool) : (calls applied : Nat) → Pool → Prop where
  | start : p.Drains 0 0 p
  | call {calls applied : Nat} {q : Pool} {r : Request} (before : p.Drains calls applied q)
      (queued : r ∈ q.queue.entries) :
      p.Drains (calls + 1) (applied + (q.applies r).toNat) (q.call r)

variable {p q : Pool} {calls applied : Nat}

namespace Drains

theorem wellKept (h : p.Drains calls applied q) (hp : p.WellKept) : q.WellKept := by
  induction h with
  | start => exact hp
  | call _ _ ih => exact ih.call _

/-- Drains may follow each other, and their calls add up. -/
theorem trans {q' : Pool} {calls' applied' : Nat} (h : p.Drains calls applied q)
    (h' : q.Drains calls' applied' q') : p.Drains (calls + calls') (applied + applied') q' := by
  induction h' with
  | start => exact h
  | call _ queued ih =>
    rw [← Nat.add_assoc, ← Nat.add_assoc]
    exact .call ih queued

/-! ## Draining ends -/

/-- Each call shortens the queue by one, unless it applies a transition. -/
theorem calls_add_size (h : p.Drains calls applied q) (hp : p.WellKept) :
    calls + q.queue.size = p.queue.size + applied := by
  induction h with
  | start => exact Nat.zero_add _
  | call before queued ih =>
    have hsize := size_call (before.wellKept hp) queued
    omega

/-- No more transitions are applied than were left. -/
theorem applied_add_left_le (h : p.Drains calls applied q) (hp : p.WellKept) :
    transitionsLeft q.store.tasks.values + applied ≤ transitionsLeft p.store.tasks.values := by
  induction h with
  | start => exact Nat.le_refl _
  | @call calls applied q r before queued ih =>
    have hleft := transitionsLeft_call (before.wellKept hp) r
    omega

/-- From every pool the consumer gets to an empty queue. -/
theorem complete (hp : p.WellKept) :
    ∃ calls applied q, p.Drains calls applied q ∧ q.queue.size = 0 := by
  -- a move counts twice, since its call puts a request back into the queue
  generalize hn : p.queue.size + 2 * transitionsLeft p.store.tasks.values = n
  induction n using Nat.strong_induction_on generalizing p with
  | _ n ih =>
    cases hentries : p.queue.entries with
    | nil => exact ⟨0, 0, p, .start, by unfold UpdateQueue.size; rw [hentries]; rfl⟩
    | cons r rest =>
      have hr : r ∈ p.queue.entries := hentries ▸ List.mem_cons_self
      have hsize := size_call hp hr
      have hleft := transitionsLeft_call hp r
      have hbool : (p.applies r).toNat ≤ 1 := Bool.toNat_le _
      obtain ⟨calls, applied, q, hdrain, hempty⟩ := ih _ (by omega) (hp.call r) rfl
      exact ⟨_, _, q, Drains.trans (.call .start hr) hdrain, hempty⟩

/-- A task leaves the queue only when no move of it is due, and the calls for other tasks do not
bring it one. -/
theorem not_due (h : p.Drains calls applied q) (hp : p.WellKept) {id : String}
    (hin : id ∈ p.queue.ids) (hout : id ∉ q.queue.ids) : q.due? id = none := by
  induction h with
  | start => exact absurd hin hout
  | @call calls applied q r before queued ih =>
    have hq := before.wellKept hp
    have hmem := mem_ids_call hq queued id
    by_cases hid : id = r.chainTaskId
    · -- the task that was served: it would be queued again if it had moved
      subst hid
      have hqueued : r.chainTaskId ∈ q.queue.ids := UpdateQueue.mem_ids_iff.2 ⟨r, queued, rfl⟩
      have hdue : q.due? r.chainTaskId = none := by
        by_contra hsome
        exact hout (hmem.2 ⟨hqueued, fun _ => Option.isSome_iff_ne_none.2 hsome⟩)
      rw [(call_idle hq hdue).1]
      exact hdue
    · have hgone : id ∉ q.queue.ids := fun hqueued =>
        hout (hmem.2 ⟨hqueued, fun heq => absurd heq hid⟩)
      rw [due?_call_of_ne hq hid]
      exact ih hgone

end Drains

/-! ## Every task goes its own way -/

/-- The file of a task, before any call. -/
def file (id : String) (p : Pool) : TaskFile := ⟨p.store.task? id, p.store.list? id, []⟩

/-- The file of a task after so many updates, while clock and chain stand still. -/
def fileAfter (p : Pool) (id : String) (n : Nat) : TaskFile :=
  (TaskFile.advance p.now (p.chain.task? id))^[n] (p.file id)

/-- One update more is made on the file as the others left it. -/
theorem fileAfter_succ (p : Pool) (id : String) (n : Nat) :
    p.fileAfter id (n + 1) = (p.fileAfter id n).advance p.now (p.chain.task? id) :=
  Function.iterate_succ_apply' _ n _

/-- No update freed the slot of a worker for a task. -/
def isHeld (p : Pool) (moves : String → Nat) (wallet id : String) : Bool :=
  !(p.fileAfter id (moves id)).freed.contains wallet

/-- The updates that each task had say where a pool is, as seen from an earlier one. -/
structure Traced (p q : Pool) (moves : String → Nat) : Prop where
  now : q.now = p.now
  chain : q.chain = p.chain
  task : ∀ id, q.store.task? id = (p.fileAfter id (moves id)).task
  list : ∀ id, q.store.list? id = (p.fileAfter id (moves id)).list
  /-- A worker computes what it computed, less the tasks that freed it. -/
  worker : ∀ wallet, q.registry.worker? wallet =
    (p.registry.worker? wallet).map (·.keeping (p.isHeld moves wallet))
  queued : ∀ {id : String}, id ∈ q.queue.ids → id ∈ p.queue.ids
  /-- A task leaves the queue when no move is due. -/
  settled : ∀ {id : String}, id ∈ p.queue.ids → id ∉ q.queue.ids →
    (p.fileAfter id (moves id)).Settled p.now (p.chain.task? id)
  /-- A task that was not queued had no update. -/
  untouched : ∀ {id : String}, id ∉ p.queue.ids → moves id = 0

namespace Traced

variable {moves : String → Nat} {r : Request}

theorem start (p : Pool) : p.Traced p fun _ => 0 := by
  refine ⟨rfl, rfl, fun _ => rfl, fun _ => rfl, fun wallet => ?_, fun h => h,
    fun hin hout => absurd hin hout, fun _ => rfl⟩
  cases p.registry.worker? wallet with
  | none => rfl
  | some w =>
    have hkeep : w.keeping (p.isHeld (fun _ => 0) wallet) = w := w.keeping_of_all fun _ _ => rfl
    rw [Option.map_some, hkeep]

/-- The outlook of a task, up to chance, is that of its file. -/
theorem outlook (h : p.Traced q moves) (id : String) :
    (p.fileAfter id (moves id)).outlook p.now (p.chain.task? id) = (q.outlook id).fixed := by
  unfold TaskFile.outlook Outlook.fixed Pool.outlook
  rw [h.now, h.chain, h.list]

/-- The file of a task that does not move is settled. -/
theorem settled_of_not_due (h : p.Traced q moves) {id : String} (hdue : q.due? id = none) :
    (p.fileAfter id (moves id)).Settled p.now (p.chain.task? id) := by
  intro t ht
  rw [← h.task] at ht
  rw [h.outlook, Outlook.next_fixed]
  unfold due? at hdue
  rw [ht] at hdue
  exact Option.map_eq_none_iff.1 hdue

/-- An idle call leaves every file as it is. -/
theorem call_idle (h : p.Traced q moves) (hq : q.WellKept) (hr : r ∈ q.queue.entries)
    (hdue : q.due? r.chainTaskId = none) : p.Traced (q.call r) moves := by
  have hmem := mem_ids_call hq hr
  have hcall := (Pool.call_idle hq hdue).1
  refine ⟨(now_call hq r).1.trans h.now, (now_call hq r).2.trans h.chain, ?_, ?_, ?_, ?_, ?_,
    h.untouched⟩
  · rw [hcall]
    exact h.task
  · rw [hcall]
    exact h.list
  · rw [hcall]
    exact h.worker
  · exact fun {id} hid => h.queued ((hmem id).1 hid).1
  · intro id hin hout
    by_cases hid : id = r.chainTaskId
    · subst hid
      exact h.settled_of_not_due hdue
    · exact h.settled hin fun hqueued => hout ((hmem id).2 ⟨hqueued, fun heq => absurd heq hid⟩)

/-- One more update of a task that moves. -/
theorem fileAfter_succ_of_due (h : p.Traced q moves) {t : Task} {status : TaskStatus}
    (ht : q.store.task? t.chainTaskId = some t)
    (hs : (q.outlook t.chainTaskId).next t = some status)
    (hforced : (q.outlook t.chainTaskId).Forced t) :
    p.fileAfter t.chainTaskId (moves t.chainTaskId + 1) = {
      task := some ((q.outlook t.chainTaskId).moved status t).saved
      list := (q.outlook t.chainTaskId).listAfter status t
      freed :=
        if status.freesWorkers then
          (p.fileAfter t.chainTaskId (moves t.chainTaskId)).freed ++
            ((q.store.list? t.chainTaskId).map (·.wallets)).getD []
        else (p.fileAfter t.chainTaskId (moves t.chainTaskId)).freed } := by
  have htask := (h.task t.chainTaskId).symm.trans ht
  have hnext : ((p.fileAfter t.chainTaskId (moves t.chainTaskId)).outlook p.now
      (p.chain.task? t.chainTaskId)).next t = some status := by
    rw [h.outlook, Outlook.next_fixed]
    exact hs
  obtain ⟨hmoved, hlist⟩ := (q.outlook t.chainTaskId).moved_fixed hs hforced
  rw [fileAfter_succ, TaskFile.advance_of_next htask hnext, h.outlook, hmoved, hlist, h.list]

/-- One more update of a task that moves frees its participants, if the status frees workers. -/
theorem freed_succ_of_due (h : p.Traced q moves) {t : Task} {status : TaskStatus}
    (ht : q.store.task? t.chainTaskId = some t)
    (hs : (q.outlook t.chainTaskId).next t = some status)
    (hforced : (q.outlook t.chainTaskId).Forced t) (wallet : String) :
    wallet ∈ (p.fileAfter t.chainTaskId (moves t.chainTaskId + 1)).freed ↔
      wallet ∈ (p.fileAfter t.chainTaskId (moves t.chainTaskId)).freed ∨
        status.freesWorkers ∧ (q.store.list? t.chainTaskId).any (·.hasWorker wallet) := by
  rw [h.fileAfter_succ_of_due ht hs hforced]
  dsimp only
  by_cases hfrees : status.freesWorkers = true
  · rw [if_pos hfrees, List.mem_append]
    refine or_congr_right ?_
    cases q.store.list? t.chainTaskId with
    | none => simp
    | some l =>
      rw [Option.map_some, Option.getD_some, Option.any_some, ReplicateList.hasWorker_iff]
      exact ⟨fun hin => ⟨hfrees, hin⟩, fun hin => hin.2⟩
  · rw [if_neg hfrees]
    exact ⟨.inl, fun hin => hin.elim (fun hin => hin) fun hin => absurd hin.1 hfrees⟩

/-- A move that frees a worker takes its task from what the worker holds, and no other move
changes what a worker holds. -/
theorem isHeld_moving {t : Task} {status : TaskStatus} (h : p.Traced q moves)
    (ht : q.store.task? t.chainTaskId = some t)
    (hs : (q.outlook t.chainTaskId).next t = some status)
    (hforced : (q.outlook t.chainTaskId).Forced t) (wallet id : String) :
    p.isHeld (Function.update moves t.chainTaskId (moves t.chainTaskId + 1)) wallet id =
      if status.freesWorkers ∧ (q.store.list? t.chainTaskId).any (·.hasWorker wallet) then
        p.isHeld moves wallet id && id != t.chainTaskId
      else p.isHeld moves wallet id := by
  unfold isHeld
  by_cases hid : id = t.chainTaskId
  · subst hid
    have hfreed := h.freed_succ_of_due ht hs hforced wallet
    rw [← List.contains_iff_mem, ← List.contains_iff_mem] at hfreed
    rw [Function.update_self]
    split
    · next hfrees =>
      rw [hfreed.2 (.inr hfrees), bne_self_eq_false, Bool.and_false]
      rfl
    · next hkept =>
      rw [or_iff_left hkept] at hfreed
      rw [Bool.eq_iff_iff.2 hfreed]
  · rw [Function.update_of_ne hid]
    split
    · rw [bne_iff_ne.2 hid, Bool.and_true]
    · rfl

/-- A moving call advances the file of its task. -/
theorem call_moving (h : p.Traced q moves) (hq : q.WellKept) (hr : r ∈ q.queue.entries)
    {t : Task} {status : TaskStatus} (hdue : q.due? r.chainTaskId = some (t, status))
    (hforced : (q.outlook r.chainTaskId).Forced t) :
    p.Traced (q.call r) (Function.update moves r.chainTaskId (moves r.chainTaskId + 1)) := by
  obtain ⟨hid, ht, hs⟩ := due_task hq hdue
  rw [← hid] at hforced ⊢
  set moves' := Function.update moves t.chainTaskId (moves t.chainTaskId + 1)
  have hself : moves' t.chainTaskId = moves t.chainTaskId + 1 := Function.update_self ..
  have hother : ∀ {id : String}, t.chainTaskId ≠ id → moves' id = moves id := fun hne =>
    Function.update_of_ne (Ne.symm hne) _ _
  have hfile := h.fileAfter_succ_of_due ht hs hforced
  rw [← hself] at hfile
  have hqueued : t.chainTaskId ∈ q.queue.ids := UpdateQueue.mem_ids_iff.2 ⟨r, hr, hid.symm⟩
  have hmem := mem_ids_call hq hr
  refine ⟨(now_call hq r).1.trans h.now, (now_call hq r).2.trans h.chain, fun id => ?_,
    fun id => ?_, fun wallet => ?_, fun {id} hin => h.queued ((hmem id).1 hin).1,
    fun {id} hin hout => ?_, fun {id} hout => ?_⟩
  · rw [task?_call_moving hq hdue]
    split
    · next heq => rw [← heq, hfile]
    · next hne => rw [hother hne, h.task]
  · rw [list?_call_moving hq hdue]
    split
    · next heq => rw [← heq, hfile]
    · next hne => rw [hother hne, h.list]
  · have hheld := h.isHeld_moving ht hs hforced wallet
    rw [worker?_call_moving hq hdue, Outlook.hasWorker_listAfter, h.worker]
    change (if status.freesWorkers ∧ (q.store.list? t.chainTaskId).any (·.hasWorker wallet) then _
      else _) = _
    split
    · next hfrees =>
      -- a participant is freed, and holds all but this task of what it held
      rw [Option.map_map]
      congr 1
      funext w
      exact w.releaseTask_keeping fun id => (hheld id).trans (if_pos hfrees)
    · next hkept =>
      rw [show p.isHeld moves' wallet = p.isHeld moves wallet from
        funext fun id => (hheld id).trans (if_neg hkept)]
  · have hne : t.chainTaskId ≠ id := by
      rintro rfl
      exact hout ((hmem _).2 ⟨hqueued, fun _ => by rw [hdue]; rfl⟩)
    rw [hother hne]
    exact h.settled hin fun hqueued =>
      hout ((hmem id).2 ⟨hqueued, fun heq => absurd (hid.trans heq.symm) hne⟩)
  · have hne : t.chainTaskId ≠ id := by
      rintro rfl
      exact hout (h.queued hqueued)
    rw [hother hne]
    exact h.untouched hout

/-- Two empty queues leave every task with the same file. -/
theorem fileAfter_unique {q' : Pool} {moves' : String → Nat} (h : p.Traced q moves)
    (h' : p.Traced q' moves') (hempty : q.queue.size = 0) (hempty' : q'.queue.size = 0)
    (id : String) : p.fileAfter id (moves id) = p.fileAfter id (moves' id) := by
  by_cases hid : id ∈ p.queue.ids
  · -- both ways the task left the queue settled
    have hout := UpdateQueue.notMem_ids_of_empty hempty id
    have hout' := UpdateQueue.notMem_ids_of_empty hempty' id
    exact TaskFile.settled_unique (h.settled hid hout) (h'.settled hid hout')
  · -- neither way it had an update
    rw [h.untouched hid, h'.untouched hid]

end Traced

/-! ## Draining is confluent -/

/-- Whenever the consumer gets to the choice of an uploader, there is one candidate at most. -/
def SoleCandidates (p : Pool) : Prop :=
  ∀ calls applied q, p.Drains calls applied q → ∀ r ∈ q.queue.entries, ∀ t,
    q.store.task? r.chainTaskId = some t → (q.outlook r.chainTaskId).Chooses t →
    ((q.outlook r.chainTaskId).listOf t).uploadCandidates.length ≤ 1

/-- It is enough that there is one candidate at most in every list at the start: draining makes
nobody a candidate. -/
theorem soleCandidates_of_lists (hp : p.WellKept)
    (hlists : ∀ id l, p.store.list? id = some l → l.uploadCandidates.length ≤ 1) :
    p.SoleCandidates := by
  have hkeep : ∀ {calls applied : Nat} {q : Pool}, p.Drains calls applied q →
      ∀ id l, q.store.list? id = some l → l.uploadCandidates.length ≤ 1 := by
    intro calls applied q hq
    induction hq with
    | start => exact hlists
    | @call calls applied q r before _ ih =>
      have hkept := before.wellKept hp
      intro id l hl
      cases hdue : q.due? r.chainTaskId with
      | none =>
        rw [(call_idle hkept hdue).1] at hl
        exact ih id l hl
      | some move =>
        rw [list?_call_moving hkept hdue] at hl
        split at hl
        · exact Outlook.length_uploadCandidates_listAfter_le _ (ih move.1.chainTaskId) hl
        · exact ih id l hl
  intro calls applied q hq r _ t _ _
  unfold Outlook.listOf
  cases hl : (q.outlook r.chainTaskId).list with
  | none => exact Nat.zero_le 1
  | some l => exact hkeep hq r.chainTaskId l hl

/-- After any calls, the updates that each task had say where the pool is. -/
theorem Drains.traced (h : p.Drains calls applied q) (hp : p.WellKept) (hsole : p.SoleCandidates) :
    ∃ moves, p.Traced q moves := by
  induction h with
  | start => exact ⟨_, .start p⟩
  | @call calls applied q r before queued ih =>
    obtain ⟨moves, htraced⟩ := ih
    have hq := before.wellKept hp
    cases hdue : q.due? r.chainTaskId with
    | none => exact ⟨moves, htraced.call_idle hq queued hdue⟩
    | some move =>
      have hchoice := hsole _ _ q before r queued move.1 (due?_eq_some.1 hdue).1
      exact ⟨_, htraced.call_moving hq queued hdue hchoice⟩

/-- Draining the queue ends and is confluent. Whatever the order in which requests are taken out
and served, the calls are as many as the requests at the start and the transitions applied, less
the requests that are left; the transitions are no more than were left to the tasks; and every
beginning can be gone on with until the queue is empty. Then no move is due of a task that was
queued at the start. If chance had no choice of an uploader, then tasks, replicate lists and workers
are the same for every order. -/
theorem draining_confluent (hp : p.Reachable) :
    (∀ calls applied q, p.Drains calls applied q →
      calls + q.queue.size = p.queue.size + applied ∧
      applied ≤ transitionsLeft p.store.tasks.values ∧
      ∃ calls' applied' q', q.Drains calls' applied' q' ∧ q'.queue.size = 0) ∧
    (∀ calls applied q, p.Drains calls applied q → q.queue.size = 0 →
      ∀ id ∈ p.queue.ids, q.attempt (updateTask id) = (.ok none, q)) ∧
    (p.SoleCandidates → ∀ calls applied q calls' applied' q',
      p.Drains calls applied q → q.queue.size = 0 →
      p.Drains calls' applied' q' → q'.queue.size = 0 →
      (∀ id, q'.store.task? id = q.store.task? id) ∧
      (∀ id, q'.store.list? id = q.store.list? id) ∧
      ∀ wallet, q'.registry.worker? wallet = q.registry.worker? wallet) := by
  have hkept := hp.wellKept
  refine ⟨fun calls applied q hq => ⟨hq.calls_add_size hkept, ?_, ?_⟩, ?_, ?_⟩
  · have hleft := hq.applied_add_left_le hkept
    omega
  · exact Drains.complete (hq.wellKept hkept)
  · intro calls applied q hq hempty id hid
    have hdue : q.due? id = none := hq.not_due hkept hid (UpdateQueue.notMem_ids_of_empty hempty id)
    rw [attempt_updateTask (hq.wellKept hkept).keyed, hdue]
  · intro hsole calls applied q calls' applied' q' hq hempty hq' hempty'
    obtain ⟨moves, htraced⟩ := hq.traced hkept hsole
    obtain ⟨moves', htraced'⟩ := hq'.traced hkept hsole
    have hfile := htraced.fileAfter_unique htraced' hempty hempty'
    refine ⟨fun id => ?_, fun id => ?_, fun wallet => ?_⟩
    · rw [htraced.task, htraced'.task, hfile]
    · rw [htraced.list, htraced'.list, hfile]
    · have hheld : p.isHeld moves wallet = p.isHeld moves' wallet := by
        funext id
        unfold isHeld
        rw [hfile]
      rw [htraced.worker, htraced'.worker, hheld]

/-- A queue with one request is drained in two calls, of which one applies a move; every other drain
leads to the same tasks. -/
theorem draining_confluent_revealing :
    revealing.Reachable ∧ revealing.SoleCandidates ∧ ∃ q, revealing.Drains 2 1 q ∧
      q.queue.size = 0 ∧ (q.store.task? "0x1").map (·.status) = some .resultUploadRequested ∧
      q.attempt (updateTask "0x1") = (.ok none, q) ∧
      ∀ calls applied q', revealing.Drains calls applied q' → q'.queue.size = 0 →
        ∀ id, q'.store.task? id = q.store.task? id := by
  have hreach := reachable_revealing
  have hsole : revealing.SoleCandidates := by
    have hlists : ∀ l ∈ revealing.store.lists.values, l.uploadCandidates.length ≤ 1 := by decide
    exact soleCandidates_of_lists hreach.wellKept fun id l hl =>
      hlists l (Table.mem_values_of_find? hl)
  -- the first call requests the upload, and the second finds nothing to do
  let r : Request := ⟨"0x1", .revealing, (Task.plain "0x1").contributionDeadline, 0, .epoch⟩
  let r' : Request := { r with status := .resultUploadRequested, seq := 1 }
  have hr : r ∈ revealing.queue.entries := by decide
  have hr' : r' ∈ (revealing.call r).queue.entries := by decide
  have hdrain : revealing.Drains 2 1 ((revealing.call r).call r') := .call (.call .start hr) hr'
  obtain ⟨-, hsettled, hsame⟩ := draining_confluent hreach
  refine ⟨hreach, hsole, _, hdrain, rfl, rfl, ?_, ?_⟩
  · exact hsettled 2 1 _ hdrain rfl "0x1" (by decide)
  · intro calls applied q' hq' hempty'
    exact (hsame hsole 2 1 _ calls applied q' hdrain rfl hq' hempty').1

end Pool

end ComputePool
