import ComputePool.Proofs.Draining.TaskFile
import ComputePool.Proofs.Locks
import ComputePool.Proofs.Runs
import ComputePool.Serving

/-!
# One call of the consumer

A call takes a request out of the queue, whatever its place there, and serves it. It either finds
nothing due and is done with the task (`call_idle`), or it makes one move and puts the task back
into the queue (`call_moving`). Idle calls shorten the queue; moving calls use up the moves that
are left, since every move goes forward (`transitionsLeft_call`).
-/

namespace ComputePool

namespace Pool

/-- The pool once a request is taken out of the queue. -/
def taken (r : Request) (p : Pool) : Pool := (Step.dispatch (.take r)).apply p

/-- Takes a request out of the queue, whatever its place, and serves it. -/
def call (r : Request) (p : Pool) : Pool :=
  ((p.taken r).perform (serveRequest r.chainTaskId)).2

/-- The call applies a transition. -/
def applies (r : Request) (p : Pool) : Bool :=
  match ((p.taken r).attempt (updateTask r.chainTaskId)).1 with
  | .ok (some _) => true
  | _ => false

variable {p : Pool} {r : Request} {t : Task} {status : TaskStatus}

theorem WellKept.taken (h : p.WellKept) (r : Request) : (p.taken r).WellKept := h.step _

theorem WellKept.call (h : p.WellKept) (r : Request) : (p.call r).WellKept :=
  Event.wellKept (.serve r.chainTaskId) (h.taken r)

/-! ## What a call does -/

/-- A call for a task that does not move only takes the request out. -/
theorem call_idle (h : p.WellKept) (hdue : p.due? r.chainTaskId = none) :
    p.call r = p.taken r ∧ p.applies r = false := by
  have hdue : (p.taken r).due? r.chainTaskId = none := hdue
  have hk := (h.taken r).keyed
  refine ⟨?_, ?_⟩
  · unfold call
    rw [perform_serveRequest hk, hdue]
  · unfold applies
    rw [attempt_updateTask hk, hdue]

/-- A call for a task that moves makes the move and publishes the task. -/
theorem call_moving (h : p.WellKept) (hdue : p.due? r.chainTaskId = some (t, status)) :
    p.call r = (((p.taken r).advanced status t).perform (publishRequest r.chainTaskId)).2 ∧
      p.applies r = true := by
  have hdue : (p.taken r).due? r.chainTaskId = some (t, status) := hdue
  have hk := (h.taken r).keyed
  refine ⟨?_, ?_⟩
  · unfold call
    rw [perform_serveRequest hk, hdue]
  · unfold applies
    rw [attempt_updateTask hk, hdue]

/-- The task of a due move is the one of the request. -/
theorem due_task (h : p.WellKept) (hdue : p.due? r.chainTaskId = some (t, status)) :
    t.chainTaskId = r.chainTaskId ∧ p.store.task? t.chainTaskId = some t ∧
      (p.outlook t.chainTaskId).next t = some status := by
  obtain ⟨ht, hs⟩ := due?_eq_some.1 hdue
  have hid := h.keyed.task ht
  rw [hid]
  exact ⟨rfl, ht, hs⟩

/-- Apart from the dispatcher, a moving call is the move. -/
theorem call_moving_eq (h : p.WellKept) (hdue : p.due? r.chainTaskId = some (t, status)) :
    p.call r = { (p.taken r).advanced status t with dispatcher := (p.call r).dispatcher } := by
  rw [(call_moving h hdue).1]
  exact publishRequest_snd r.chainTaskId _

/-- A call moves the task of its request and no other. -/
theorem task?_call_moving (h : p.WellKept) (hdue : p.due? r.chainTaskId = some (t, status))
    (id : String) :
    (p.call r).store.task? id =
      if t.chainTaskId = id then some ((p.outlook t.chainTaskId).moved status t).saved
      else p.store.task? id := by
  rw [call_moving_eq h hdue]
  exact task?_advanced (p := p.taken r) status (due_task h hdue).2.1 id

theorem list?_call_moving (h : p.WellKept) (hdue : p.due? r.chainTaskId = some (t, status))
    (id : String) :
    (p.call r).store.list? id =
      if t.chainTaskId = id then (p.outlook t.chainTaskId).listAfter status t
      else p.store.list? id := by
  rw [call_moving_eq h hdue]
  exact list?_advanced (p := p.taken r) status (due_task h hdue).2.1 id

/-- Where the task is over its participants are free of it, and nobody else is. -/
theorem worker?_call_moving (h : p.WellKept) (hdue : p.due? r.chainTaskId = some (t, status))
    (wallet : String) :
    (p.call r).registry.worker? wallet =
      if status.freesWorkers ∧
          ((p.outlook t.chainTaskId).listAfter status t).any (·.hasWorker wallet) then
        (p.registry.worker? wallet).map (·.releaseTask t.chainTaskId)
      else p.registry.worker? wallet := by
  rw [call_moving_eq h hdue]
  exact worker?_advanced (p := p.taken r) status (due_task h hdue).2.1 wallet

/-- No call touches the clock or the chain. -/
theorem now_call (h : p.WellKept) (r : Request) :
    (p.call r).now = p.now ∧ (p.call r).chain = p.chain := by
  cases hdue : p.due? r.chainTaskId with
  | none =>
    rw [(call_idle h hdue).1]
    exact ⟨rfl, rfl⟩
  | some move =>
    have htask : (p.taken r).store.task? move.1.chainTaskId = some move.1 := (due_task h hdue).2.1
    rw [call_moving_eq h hdue, advanced_eq move.2 htask]
    exact ⟨rfl, rfl⟩

theorem leads_call (r : Request) : p.Leads (fun _ => True) (p.call r) :=
  (Leads.single (S := fun _ => True) (s := .dispatch (.take r)) trivial p).trans
    ((Event.leads (.serve r.chainTaskId) (p.taken r)).mono fun _ _ => trivial)

/-- No call touches the locks. -/
theorem locks_call (h : p.WellKept) (r : Request) : (p.call r).locks = p.locks := by
  cases hdue : p.due? r.chainTaskId with
  | none =>
    rw [(call_idle h hdue).1]
    rfl
  | some move =>
    have htask : (p.taken r).store.task? move.1.chainTaskId = some move.1 := (due_task h hdue).2.1
    rw [(call_moving h hdue).1, locks_publishRequest, advanced_eq move.2 htask]
    rfl

/-- A call for one task changes nothing that the moves of another depend on. -/
theorem due?_call_of_ne (h : p.WellKept) {id : String} (hid : id ≠ r.chainTaskId) :
    (p.call r).due? id = p.due? id := by
  cases hdue : p.due? r.chainTaskId with
  | none =>
    rw [(call_idle h hdue).1]
    rfl
  | some move =>
    have hne : move.1.chainTaskId ≠ id := by
      rw [(due_task h hdue).1]
      exact Ne.symm hid
    have htask := task?_call_moving h hdue id
    have hlist := list?_call_moving h hdue id
    rw [if_neg hne] at htask hlist
    -- the draw that a call may have used up does not decide on a move
    have houtlook : ((p.call r).outlook id).fixed = (p.outlook id).fixed := by
      unfold Outlook.fixed outlook
      rw [hlist, (now_call h r).1, (now_call h r).2]
    have hnext : ∀ t, ((p.call r).outlook id).next t = (p.outlook id).next t := by
      intro t
      rw [← Outlook.next_fixed, houtlook, Outlook.next_fixed]
    unfold due?
    rw [htask]
    exact Option.bind_congr fun t _ => by rw [hnext]

/-! ## The queue after a call -/

/-- Where no move is due the request is gone from the queue, and that is all. -/
theorem ids_call_idle (h : p.WellKept) (hdue : p.due? r.chainTaskId = none) :
    (p.call r).queue.ids = (p.queue.remove r).ids := by
  rw [(call_idle h hdue).1]
  rfl

/-- A task that moved is queued again, behind all others. -/
theorem ids_call_moving (h : p.WellKept) (hr : r ∈ p.queue.entries)
    (hdue : p.due? r.chainTaskId = some (t, status)) :
    (p.call r).queue.ids = (p.queue.remove r).ids ++ [r.chainTaskId] := by
  obtain ⟨hid, ht, -⟩ := due_task h hdue
  have ht : (p.taken r).store.task? t.chainTaskId = some t := ht
  set q := (p.taken r).advanced status t with hq
  have hqueue : q.queue = p.queue.remove r := by
    rw [hq, advanced_eq status ht]
    rfl
  have hcoherent : q.queue.Coherent := by
    rw [hqueue]
    exact h.coherent.remove r
  have hfree : r.chainTaskId ∉ q.queue.ids := by
    rw [hqueue]
    exact h.coherent.notMem_remove hr
  have hnamed : r.chainTaskId.isEmpty = false := by
    have hne := (h.queued (UpdateQueue.mem_ids_iff.2 ⟨r, hr, rfl⟩)).1
    simpa using hne
  have hstored := task?_advanced status ht r.chainTaskId
  rw [if_pos hid] at hstored
  -- the request was taken out, so that of the moved task is accepted
  rw [(call_moving h hdue).1, perform_publishRequest, if_neg (by simp [hnamed]),
    if_neg fun hc => hfree ((hcoherent.contains_iff _).1 hc), hstored]
  set saved := (((p.taken r).outlook t.chainTaskId).moved status t).saved
  have hsaved : saved.chainTaskId = r.chainTaskId :=
    (Outlook.moved_chainTaskId _ status t).trans hid
  have hoffer := (hcoherent.offer_of_notMem q.now (t := saved) (hsaved.symm ▸ hfree)).2
  have hoffered : (q.offer saved).2.queue = (q.queue.offer q.now saved).2 :=
    Dispatcher.queue_offer q.now saved q.dispatcher
  dsimp only
  rw [hoffered, hoffer, hqueue, hsaved]

/-- A call for a queued request keeps the length of the queue if it makes a move, and else
shortens it by one. -/
theorem size_call (h : p.WellKept) (hr : r ∈ p.queue.entries) :
    (p.call r).queue.size + 1 = p.queue.size + (p.applies r).toNat := by
  have hsize : ∀ q : UpdateQueue, q.size = q.ids.length := fun q => (List.length_map _).symm
  have hremove : p.queue.size = (p.queue.remove r).ids.length + 1 := by
    rw [hsize, (UpdateQueue.perm_ids_remove hr).length_eq, List.length_cons]
  rw [hsize]
  cases hdue : p.due? r.chainTaskId with
  | none =>
    rw [ids_call_idle h hdue, (call_idle h hdue).2, hremove]
    rfl
  | some move =>
    rw [ids_call_moving h hr hdue, (call_moving h hdue).2, hremove, List.length_append]
    rfl

/-- A call queues nothing new. -/
theorem mem_ids_call (h : p.WellKept) (hr : r ∈ p.queue.entries) (id : String) :
    id ∈ (p.call r).queue.ids ↔
      id ∈ p.queue.ids ∧ (id = r.chainTaskId → (p.due? r.chainTaskId).isSome) := by
  rw [(UpdateQueue.perm_ids_remove hr).mem_iff, List.mem_cons]
  have hout := h.coherent.notMem_remove hr
  cases hdue : p.due? r.chainTaskId with
  | none =>
    rw [ids_call_idle h hdue]
    constructor
    · intro hid
      refine ⟨.inr hid, ?_⟩
      rintro rfl
      exact absurd hid hout
    · rintro ⟨rfl | hid, hsome⟩
      · exact absurd (hsome rfl) (by simp)
      · exact hid
  | some move =>
    rw [ids_call_moving h hr hdue, List.mem_append, List.mem_singleton]
    exact ⟨fun hid => ⟨hid.symm, fun _ => rfl⟩, fun hid => hid.1.symm⟩

/-! ## Moves are used up -/

/-- Setting a task changes what is left by what is left to the task before and after. -/
theorem transitionsLeft_insertIn (id : String) (t : Task) {es : List (String × Task)} {old : Task}
    (h : Table.findIn id es = some old) :
    transitionsLeft ((Table.insertIn id t es).map (·.2)) +
        (TaskStatus.failed.rank - old.status.rank) =
      transitionsLeft (es.map (·.2)) + (TaskStatus.failed.rank - t.status.rank) := by
  induction es with
  | nil => exact absurd h (by simp [Table.findIn])
  | cons e rest ih =>
    unfold Table.findIn at h
    unfold Table.insertIn
    by_cases he : e.1 = id
    · -- the entry that is set: the rest is the same on both sides
      rw [if_pos he] at h ⊢
      obtain rfl := Option.some.inj h
      rw [List.map_cons, List.map_cons, transitionsLeft, transitionsLeft]
      dsimp only
      omega
    · rw [if_neg he] at h ⊢
      rw [List.map_cons, List.map_cons, transitionsLeft, transitionsLeft]
      have hrest := ih h
      omega

/-- A call that makes a move uses up a move that was left. -/
theorem transitionsLeft_call (h : p.WellKept) (r : Request) :
    transitionsLeft (p.call r).store.tasks.values + (p.applies r).toNat ≤
      transitionsLeft p.store.tasks.values := by
  cases hdue : p.due? r.chainTaskId with
  | none =>
    rw [(call_idle h hdue).1, (call_idle h hdue).2]
    exact Nat.le_refl _
  | some move =>
    obtain ⟨t, status⟩ := move
    obtain ⟨-, ht, hs⟩ := due_task h hdue
    have hlt : t.status.rank < status.rank :=
      TaskStatus.lt_of_mem_successors (Outlook.next_mem_successors _ hs)
    have hle : status.rank ≤ TaskStatus.failed.rank := by
      cases status <;> decide
    have hleft := transitionsLeft_insertIn t.chainTaskId
      ((p.outlook t.chainTaskId).moved status t).saved ht
    have htasks : (p.call r).store.tasks = p.store.tasks.insert t.chainTaskId
        ((p.outlook t.chainTaskId).moved status t).saved := by
      rw [call_moving_eq h hdue]
      show ((p.taken r).advanced status t).store.tasks = _
      rw [advanced_eq_recorded, recorded_eq (p := p.taken r) status ht]
      rfl
    rw [htasks, (call_moving h hdue).2]
    have hstatus : ((p.outlook t.chainTaskId).moved status t).saved.status = status := rfl
    rw [hstatus] at hleft
    show transitionsLeft ((Table.insertIn _ _ p.store.tasks.entries).map (·.2)) + 1 ≤
      transitionsLeft (p.store.tasks.entries.map (·.2))
    omega

end Pool

end ComputePool
