import ComputePool.Proofs.Records

/-!
# What holds of every pool that is run

A pool starts without records, workers, requests and routines (`Pool.IsNew`), and changes by
single steps. Whatever the steps are, and in whatever order they come, three things hold all the
time (`Pool.WellKept`):

* every record lies under its own id;
* the queue and its pending ids agree;
* a request is queued only for a stored task, and never for the empty id.

The dispatcher changes its queue in two ways only, by taking out requests and by pruning, so what
both of these keep is kept by all it does (`Dispatcher.queue_move`).
-/

namespace ComputePool

/-! ## The queue of the dispatcher -/

namespace UpdateQueue

variable {q : UpdateQueue}

/-- Taking a request out queues no other task. -/
theorem ids_remove_subset (q : UpdateQueue) (r : Request) : (q.remove r).ids ⊆ q.ids := by
  unfold remove
  split
  · exact List.map_subset _ List.erase_subset
  · exact List.Subset.refl _

/-- Dropping the expired requests queues no other task. -/
theorem ids_prune_subset (q : UpdateQueue) (now : Instant) : (q.prune now).2.ids ⊆ q.ids :=
  List.map_subset _ fun _ hr => List.mem_of_mem_filter hr

/-- The ids after an offer are the old ones, and perhaps that of the task. -/
theorem Coherent.ids_offer (h : q.Coherent) (now : Instant) (t : Task) {id : String}
    (hid : id ∈ (q.offer now t).2.ids) : id ∈ q.ids ∨ id = t.chainTaskId := by
  by_cases ht : t.chainTaskId ∈ q.ids
  · rw [h.offer_of_mem now ht] at hid
    exact .inl hid
  · rw [(h.offer_of_notMem now ht).2, List.mem_append, List.mem_singleton] at hid
    exact hid

/-- The queue grows by one with each request that is accepted, and else not at all. -/
theorem size_offer (now : Instant) (t : Task) (q : UpdateQueue) :
    (q.offer now t).2.size = q.size + (q.offer now t).1.toNat := by
  unfold offer
  split
  · rfl
  · exact List.length_append

end UpdateQueue

namespace Dispatcher

variable {P : UpdateQueue → Prop}

@[simp] theorem queue_wake (who : Option Nat) (d : Dispatcher) : (d.wake who).queue = d.queue := rfl

@[simp] theorem queue_continueAs (who : Nat) (a : Activity) (d : Dispatcher) :
    (d.continueAs who a).queue = d.queue := rfl

@[simp] theorem queue_release (t : Ticket) (d : Dispatcher) : (d.release t).queue = d.queue := rfl

/-- What an offer to the dispatcher does to the queue is what the queue does with it. -/
theorem queue_offer (now : Instant) (t : Task) (d : Dispatcher) :
    (d.offer now t).2.queue = (d.queue.offer now t).2 := by
  unfold offer
  match d.queue.offer now t with
  | (false, q) => rfl
  | (true, q) => rfl

theorem queue_topUp (d : Dispatcher) : d.topUp.queue = d.queue := by
  unfold topUp
  split
  · generalize d.poolSize - d.active = n
    -- by induction on the routines that are missing
    induction n with
    | zero => rfl
    | succ n ih => exact ih
  · rfl

/-- A routine that looks for a request takes out at most one. -/
theorem queue_look (hremove : ∀ q r, P q → P (q.remove r)) (now : Instant) (who : Nat)
    {d : Dispatcher} (h : P d.queue) : P (d.look now who).2.queue := by
  unfold look
  split
  · exact h
  · rw [UpdateQueue.pop_eq]
    cases Request.first? d.queue.entries with
    | none => exact h
    | some r =>
      dsimp only
      split
      · exact hremove _ r h
      · exact hremove _ r h

/-- What taking requests out of the queue keeps is kept while one routine goes on. -/
theorem queue_resume (hremove : ∀ q r, P q → P (q.remove r)) (now : Instant) (who : Nat)
    {d : Dispatcher} (h : P d.queue) : P (d.resume now who).2.queue := by
  unfold resume
  split
  · exact queue_look hremove now who h
  · exact h
  · exact h

/-- What taking requests out of the queue keeps is kept while any number of routines go on. -/
theorem queue_resumeAll (hremove : ∀ q r, P q → P (q.remove r)) (now : Instant) (l : List Nat)
    {d : Dispatcher} (h : P d.queue) : P (d.resumeAll now l).2.queue := by
  induction l generalizing d with
  | nil => exact h
  | cons who rest ih =>
    have hwho := queue_resume hremove now who h
    unfold resumeAll
    rcases hr : d.resume now who with ⟨_ | t, d'⟩
    · rw [hr] at hwho
      exact ih hwho
    · rw [hr] at hwho
      exact hwho

/-- What the removal of a request and the pruning keep is kept by all that the dispatcher does. -/
theorem queue_move (hremove : ∀ q r, P q → P (q.remove r))
    (hprune : ∀ q now, P q → P (q.prune now).2) (now : Instant) (m : Move) {d : Dispatcher}
    (h : P d.queue) : P (d.move now m).queue := by
  cases m with
  | take r => exact hremove _ r h
  | touch id => exact h
  | setConsumer => exact h
  | topUp =>
    show P d.topUp.queue
    rw [queue_topUp]
    exact h
  | sweep => exact hprune _ now h
  | shutdown => exact h
  | next => exact queue_resumeAll hremove now d.ready h
  | turn =>
    show P (d.step now).2.queue
    unfold step
    split
    · exact h
    · next who rest _ => exact queue_resume hremove now who (d := { d with ready := rest }) h
  | finish who t => exact h

end Dispatcher

/-! ## Pools -/

namespace Pool

/-- A pool in which nothing was done yet. Its clock, chain, policy and settings are arbitrary. -/
structure IsNew (p : Pool) : Prop where
  store : p.store = .empty
  workers : p.registry.workers = .empty
  dispatcher : ∃ poolSize ttl, p.dispatcher = .empty poolSize ttl

/-- Single steps lead from a new pool to this one. -/
def Reachable (p : Pool) : Prop := ∃ start : Pool, start.IsNew ∧ start.Leads (fun _ => True) p

/-- What holds of a pool at all times. -/
structure WellKept (p : Pool) : Prop where
  keyed : p.store.Keyed
  coherent : p.queue.Coherent
  queued : ∀ {id : String}, id ∈ p.queue.ids → id ≠ "" ∧ (p.store.task? id).isSome

variable {p : Pool}

/-- A new pool is well kept, since it has no records and no requests. -/
theorem IsNew.wellKept (h : p.IsNew) : p.WellKept := by
  obtain ⟨poolSize, ttl, hd⟩ := h.dispatcher
  have hqueue : p.queue = .empty ttl := congrArg (·.queue) hd
  refine ⟨?_, ?_, fun hid => ?_⟩
  · rw [h.store]
    exact .empty
  · rw [hqueue]
    exact UpdateQueue.coherent_empty ttl
  · rw [hqueue] at hid
    exact absurd hid List.not_mem_nil

/-- A request for a task that is stored under an id that is not empty. -/
theorem WellKept.publish (h : p.WellKept) (id : String) :
    (p.perform (publishRequest id)).2.WellKept := by
  rw [perform_publishRequest]
  split
  · exact h
  · next hempty =>
    split
    · exact h
    · split
      · next t ht =>
        have hq : (p.offer t).2.queue = (p.queue.offer p.now t).2 :=
          Dispatcher.queue_offer p.now t p.dispatcher
        refine ⟨h.keyed, ?_, fun {i} hi => ?_⟩
        · rw [hq]
          exact h.coherent.offer p.now t
        · rw [hq] at hi
          -- the id was queued before, or is that of the stored task
          rcases h.coherent.ids_offer p.now t hi with hi | rfl
          · exact h.queued hi
          · rw [h.keyed.task ht]
            have hstored : ((p.offer t).2.store.task? id).isSome := by
              show (p.store.task? id).isSome
              rw [ht]
              rfl
            exact ⟨by simpa using hempty, hstored⟩
      · exact h

/-- Whatever the dispatcher does, each task has one request in the queue at most. -/
theorem WellKept.dispatch (h : p.WellKept) (m : Dispatcher.Move) :
    (p.changeDispatcher fun d => d.move p.now m).WellKept := by
  refine ⟨h.keyed, ?_, fun hid => h.queued ?_⟩
  · exact Dispatcher.queue_move (fun _ r hq => hq.remove r) (fun _ now hq => hq.prune now) p.now m
      h.coherent
  · exact Dispatcher.queue_move (P := fun q => q.ids ⊆ p.queue.ids)
      (fun q r hq => List.Subset.trans (q.ids_remove_subset r) hq)
      (fun q now hq => List.Subset.trans (q.ids_prune_subset now) hq) p.now m
      (List.Subset.refl _) hid

/-- Every step keeps what holds at all times. -/
theorem WellKept.step (h : p.WellKept) (s : Step) : (s.apply p).WellKept := by
  by_cases hpart : s.part = .dispatcher
  · cases s with
    | publish id => exact h.publish id
    | tryLock id => exact ⟨h.keyed, h.coherent, h.queued⟩
    | unlock t => exact ⟨h.keyed, h.coherent, h.queued⟩
    | dispatch m => exact h.dispatch m
    | _ => exact absurd hpart (by simp [Step.part])
  · have hqueue : (s.apply p).queue = p.queue :=
      congrArg (·.queue) (Step.dispatcher_apply p hpart)
    refine ⟨h.keyed.step s, ?_, fun {id} hid => ?_⟩
    · rw [hqueue]
      exact h.coherent
    · rw [hqueue] at hid
      exact ⟨(h.queued hid).1, Step.task?_isSome (h.queued hid).2⟩

/-- A pool stays well kept, whatever steps are taken. -/
theorem WellKept.leads {S : Step → Prop} {q : Pool} (h : p.WellKept) (hq : p.Leads S q) :
    q.WellKept :=
  hq.keeps (fun s _ _ hr => WellKept.step hr s) h

/-- Every pool that is run is well kept. -/
theorem Reachable.wellKept (h : p.Reachable) : p.WellKept := by
  obtain ⟨start, hnew, hleads⟩ := h
  exact hnew.wellKept.leads hleads

theorem Reachable.leads {S : Step → Prop} {q : Pool} (h : p.Reachable) (hq : p.Leads S q) :
    q.Reachable := by
  obtain ⟨start, hnew, hleads⟩ := h
  exact ⟨start, hnew, hleads.trans (hq.mono fun _ _ => trivial)⟩

theorem IsNew.reachable (h : p.IsNew) : p.Reachable := ⟨p, h, .refl p⟩

/-- The pool after steps, one after the other. -/
def after (steps : List Step) (p : Pool) : Pool := steps.foldl (fun q s => s.apply q) p

/-- Steps that are named lead to the pool after them. -/
theorem leads_after {S : Step → Prop} {steps : List Step} (h : ∀ s ∈ steps, S s) (p : Pool) :
    p.Leads S (p.after steps) := by
  induction steps generalizing p with
  | nil => exact .refl p
  | cons s rest ih =>
    have hfirst : p.Leads S (s.apply p) := .single (h s List.mem_cons_self) p
    exact hfirst.trans (ih (fun s hs => h s (List.mem_cons_of_mem _ hs)) (s.apply p))

theorem Reachable.after (h : p.Reachable) (steps : List Step) : (p.after steps).Reachable :=
  h.leads (leads_after (S := fun _ => True) (fun _ _ => trivial) p)

/-! ### Publications that are absorbed -/

variable {id : String}

/-- A publication changes nothing: the id is empty, or queued, or unknown. -/
def Absorbs (id : String) (p : Pool) : Prop :=
  id = "" ∨ id ∈ p.queue.ids ∨ p.store.task? id = none

/-- Whether a request is accepted is for the queue to say. -/
theorem offer_fst (t : Task) (p : Pool) : (p.offer t).1 = (p.queue.offer p.now t).1 := by
  show (p.dispatcher.offer p.now t).1 = (p.dispatcher.queue.offer p.now t).1
  unfold Dispatcher.offer
  rcases p.dispatcher.queue.offer p.now t with ⟨_ | _, q⟩
  · rfl
  · rfl

/-- The queue after an offer, with the woken routine still to come for the request. -/
theorem queue_offer (t : Task) (p : Pool) : (p.offer t).2.queue = (p.queue.offer p.now t).2 :=
  Dispatcher.queue_offer p.now t p.dispatcher

/-- A publication is refused and changes nothing, or it offers the task that is stored. -/
theorem WellKept.publish_cases (h : p.WellKept) (id : String) :
    (p.Absorbs id ∧ p.perform (publishRequest id) = (false, p)) ∨
      (¬ p.Absorbs id ∧ ∃ t, p.store.task? id = some t ∧ t.chainTaskId = id ∧ id ∉ p.queue.ids ∧
        p.perform (publishRequest id) = (true, (p.offer t).2)) := by
  have hqueued : p.queue.contains id = true ↔ id ∈ p.queue.ids := h.coherent.contains_iff id
  rw [perform_publishRequest]
  by_cases habsorbs : p.Absorbs id
  · refine .inl ⟨habsorbs, ?_⟩
    rcases habsorbs with rfl | hmem | hunknown
    · rfl
    · rw [if_pos (hqueued.2 hmem), ite_self]
    · rw [hunknown, ite_self, ite_self]
  · refine .inr ⟨habsorbs, ?_⟩
    unfold Absorbs at habsorbs
    rw [not_or, not_or] at habsorbs
    obtain ⟨hnamed, hfree, hknown⟩ := habsorbs
    obtain ⟨t, ht⟩ := Option.ne_none_iff_exists'.1 hknown
    have hid : t.chainTaskId = id := h.keyed.task ht
    have haccepted : (p.offer t).1 = true := by
      rw [offer_fst]
      exact (h.coherent.offer_of_notMem p.now (hid ▸ hfree)).1
    refine ⟨t, ht, hid, hfree, ?_⟩
    rw [if_neg (by simpa using hnamed), if_neg fun hc => hfree (hqueued.1 hc), ht]
    exact Prod.ext haccepted rfl

/-- A task that is queued, unknown or without an id is published in vain, and nothing changes. -/
theorem Absorbs.after_publish (h : p.Absorbs id) (hp : p.WellKept) : p.after [.publish id] = p := by
  show (p.perform (publishRequest id)).2 = p
  rcases hp.publish_cases id with ⟨-, heq⟩ | ⟨hno, -⟩
  · rw [heq]
  · exact absurd h hno

/-- A publication that is not absorbed queues a request. -/
theorem ids_after_publish (h : ¬ p.Absorbs id) (hp : p.WellKept) :
    (p.after [.publish id]).queue.ids = p.queue.ids ++ [id] := by
  rcases hp.publish_cases id with ⟨habsorbs, -⟩ | ⟨-, t, -, rfl, hfree, heq⟩
  · exact absurd habsorbs h
  · show (p.perform (publishRequest t.chainTaskId)).2.queue.ids = _
    rw [heq, queue_offer, (hp.coherent.offer_of_notMem p.now hfree).2]

/-- A task that was published need not be published again. -/
theorem absorbs_after_publish (id : String) (hp : p.WellKept) :
    (p.after [.publish id]).Absorbs id := by
  by_cases h : p.Absorbs id
  · rw [h.after_publish hp]
    exact h
  · refine .inr (.inl ?_)
    rw [ids_after_publish h hp]
    exact List.mem_append_right _ (List.mem_singleton.2 rfl)

end Pool

/-! ## A small pool -/

/-- A task that was received in 1970 and has a day. -/
def Task.plain (id : String) : Task where
  id := .nil
  version := 0
  chainTaskId := id
  dealId := ""
  index := 0
  status := .received
  history := [⟨.received, .epoch⟩]
  trust := 1
  maxExecutionTime := .ofSeconds 60
  tee := false
  enclaveChallenge := ""
  contributionDeadline := ⟨86400, 0, by decide⟩
  finalDeadline := ⟨86400, 0, by decide⟩
  consensus := none
  consensusBlock := 0
  uploader := none
  resultLink := none

/-- What the chain says of a task that waits for contributions. -/
def ChainTask.plain (id : String) : ChainTask where
  chainTaskId := id
  status := .active
  winnerCounter := 0
  consensusValue := ""
  revealingBlock := 0
  contributionDeadline := ⟨86400, 0, by decide⟩
  finalDeadline := ⟨86400, 0, by decide⟩

namespace Pool

/-- A new pool that anyone may join. -/
def blank : Pool where
  now := .epoch
  store := .empty
  chain := .empty
  registry := .empty [] 0
  dispatcher := .empty 1 (.ofSeconds 60)
  signer := ⟨[]⟩
  maxAttempts := 1
  rolls := []

/-- The blank pool is new: it has no records, and its dispatcher has just been set up. -/
theorem isNew_blank : blank.IsNew := ⟨rfl, rfl, 1, .ofSeconds 60, rfl⟩

/-- A pool with one task, which waits for an uploader, and one replicate, which revealed. -/
def revealing : Pool := blank.after [
  .insertTask ((Task.plain "0x1").changeStatus .epoch .revealing),
  .createList "0x1",
  .addReplicate (.empty "0x1") "0xa",
  .updateReplicate "0x1" "0xa" (.byWorker .epoch .revealed none),
  .publish "0x1"]

/-- The pool is reached from the blank one. -/
theorem reachable_revealing : revealing.Reachable := isNew_blank.reachable.after _

end Pool

end ComputePool
