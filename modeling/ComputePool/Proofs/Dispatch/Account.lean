import ComputePool.Proofs.Dispatch.Books

/-!
# Every request is accounted for

The requests that were accepted are queued, held by a routine, handed to the consumer, or dropped,
and each of them is in one of these places: the notes of a shift are a ledger of the queue. Together
with what is known of who stands where, this is what a shift keeps (`Shift.Kept`): a new pool has it
(`kept_opened`), and every move keeps it (`Kept.apply`).
-/

namespace ComputePool

namespace Pool

variable {p : Pool}

/-- What holds at all times does not depend on the dispatcher, but for its queue. -/
theorem WellKept.of_queue (h : p.WellKept) {d : Dispatcher} (hcoherent : d.queue.Coherent)
    (hids : d.queue.ids ⊆ p.queue.ids) : (p.changeDispatcher fun _ => d).WellKept :=
  ⟨h.keyed, hcoherent, fun hid => h.queued (hids hid)⟩

end Pool

namespace Shift

open Function (update)

/-- What holds of a shift at all times. -/
structure Kept (s : Shift) : Prop where
  wellKept : s.pool.WellKept
  ledger : s.queue.Ledger s.published s.gone
  called : s.calls = s.handed.map (·.chainTaskId)
  staffed : ∃ σ holder, s.Staffed σ holder

/-- In a new pool nobody has a place and nothing is published. -/
theorem kept_opened {pool : Pool} (hnew : pool.IsNew) : (opened pool).Kept := by
  obtain ⟨poolSize, ttl, hd⟩ := hnew.dispatcher
  refine ⟨hnew.wellKept, ?_, rfl, fun _ => .absent, fun _ => none, ?_, ?_, ?_, ?_⟩
  · show pool.dispatcher.queue.Ledger [] []
    rw [hd]
    exact UpdateQueue.ledger_empty ttl
  · show pool.dispatcher.Manned _
    rw [hd]
    exact Dispatcher.manned_empty poolSize ttl
  · show pool.dispatcher.locks.Secured [] (fun _ => none) _
    rw [hd]
    exact Locks.secured_empty ttl
  · exact ⟨List.nodup_nil, fun _ => iff_of_false List.not_mem_nil (by simp [Standing.isVisiting])⟩
  · exact ⟨List.nodup_nil, fun _ _ => iff_of_false List.not_mem_nil (by simp [Standing.request?])⟩

variable {s : Shift} {σ : Nat → Standing} {holder : String → Option Holder} {who : Nat}

/-! ## Turns -/

/-- Somebody who can go on does so in one of the ways there are. -/
theorem Staffed.turn_goes (h : s.Staffed σ holder) (hwho : who ∈ s.dispatcher.ready) :
    ∃ place, Dispatcher.Goes s.pool.now who
      { s.dispatcher with ready := s.dispatcher.ready.erase who } (σ who) (s.turn who) place :=
  Dispatcher.resume_goes s.pool.now h.secured.sound (h.manned.activity who)
    ((h.manned.ready.mem_iff who).1 hwho)

/-- What a turn does with requests. -/
inductive Dealt (who : Nat) (s s' : Shift) : Prop where
  | nothing (hqueue : s'.queue = s.queue) (hheld : s'.held = s.held)
      (hhanded : s'.handed = s.handed)
      (hcalls : s'.calls = s.calls)
  /-- A request is taken out of the queue, and held. -/
  | took (r : Request) (hr : r ∈ s.queue.entries) (hrunning : s.dispatcher.isShutdown = false)
      (hqueue : s'.queue = s.queue.remove r) (hheld : s'.held = s.held ++ [(who, r)])
      (hhanded : s'.handed = s.handed) (hcalls : s'.calls = s.calls)
  /-- A request is taken out of the queue, and handed over. -/
  | served (r : Request) (serial : Nat) (hr : r ∈ s.queue.entries)
      (hrunning : s.dispatcher.isShutdown = false) (hqueue : s'.queue = s.queue.remove r)
      (hheld : s'.held = s.held) (hhanded : s'.handed = s.handed ++ [r])
      (hcalls : s'.calls = s.calls ++ [r.chainTaskId])
      (hupdating : s'.dispatcher.routines.find? who = some (.updating ⟨r.chainTaskId, serial⟩))
  /-- The request that is held is handed over. -/
  | handed (r : Request) (serial : Nat) (hr : (who, r) ∈ s.held) (hqueue : s'.queue = s.queue)
      (hheld : s'.held = s.held.filter fun x => x.1 ≠ who) (hhanded : s'.handed = s.handed ++ [r])
      (hcalls : s'.calls = s.calls ++ [r.chainTaskId])
      (hupdating : s'.dispatcher.routines.find? who = some (.updating ⟨r.chainTaskId, serial⟩))

/-- Nothing comes of a turn but this. -/
theorem Staffed.dealt (h : s.Staffed σ holder) (hqueue : s.queue.entries.Nodup)
    (hwho : who ∈ s.dispatcher.ready) : Dealt who s (s.ran who (s.turn who)) := by
  obtain ⟨place, hgoes⟩ := h.turn_goes hwho
  have hstill : s.heldThen who s.dispatcher.queue = s.held := s.heldThen_self who
  have hset : ∀ a : Activity, (s.dispatcher.routines.insert who a).find? who = some a := fun a =>
    (Table.find?_insert who who a _).trans (if_pos rfl)
  generalize s.turn who = x at hgoes
  generalize hold : σ who = old at hgoes
  cases hgoes with
  | dismissed => exact .nothing rfl hstill rfl rfl
  | left hshutdown => exact .nothing rfl hstill rfl rfl
  | rested hshutdown hempty => exact .nothing rfl hstill rfl rfl
  | queued hshutdown hr hheld hticket hturns =>
    exact .took _ hr hshutdown rfl (heldThen_remove who hqueue hr) rfl rfl
  | @entered r serial locks hshutdown hr hfree hticket hturns =>
    have htook := heldThen_remove who hqueue hr
    have htaken := h.holding.take (s := .queued r serial) (congrArg Standing.request? hold) rfl
    refine .served r serial hr hshutdown rfl ?_ ?_ rfl (hset _)
    · show (s.heldThen who (s.queue.remove r)).filter _ = _
      rw [htook, List.filter_append, List.filter_eq_self.2 fun x hx => ?_]
      · simp
      · -- the routine held nothing before
        have hne : x.1 ≠ who := by
          rintro rfl
          have hrequest := (h.holding.mem_iff x.1 x.2).1 hx
          rw [hold] at hrequest
          exact absurd hrequest (by simp [Standing.request?])
        simpa using hne
    · show s.handed ++ ((s.heldThen who (s.queue.remove r)).filter _).map _ = _
      rw [htook, htaken.filter_eq (List.mem_append_right _ (List.mem_singleton.2 rfl))]
      rfl
  | proceeded r serial =>
    have hr : (who, r) ∈ s.held := (h.holding.mem_iff who r).2 (congrArg Standing.request? hold)
    refine .handed r serial hr rfl ?_ ?_ rfl (hset _)
    · show (s.heldThen who s.dispatcher.queue).filter _ = _
      rw [hstill]
    · show s.handed ++ ((s.heldThen who s.dispatcher.queue).filter _).map _ = _
      rw [hstill, h.holding.filter_eq hr]
      rfl

namespace Dealt

variable {s' : Shift} (h : Dealt who s s')

include h

theorem ids_subset : s'.queue.ids ⊆ s.queue.ids := by
  cases h with
  | nothing hqueue hheld hhanded hcalls => exact hqueue ▸ List.Subset.refl _
  | took r hr hrunning hqueue hheld hhanded hcalls => exact hqueue ▸ s.queue.ids_remove_subset r
  | served r serial hr hrunning hqueue hheld hhanded hcalls hupdating =>
    exact hqueue ▸ s.queue.ids_remove_subset r
  | handed r serial hr hqueue hheld hhanded hcalls hupdating => exact hqueue ▸ List.Subset.refl _

/-- The consumer is called for what is handed over. -/
theorem called (hcalled : s.calls = s.handed.map (·.chainTaskId)) :
    s'.calls = s'.handed.map (·.chainTaskId) := by
  cases h with
  | nothing hqueue hheld hhanded hcalls => rw [hcalls, hhanded, hcalled]
  | took r hr hrunning hqueue hheld hhanded hcalls => rw [hcalls, hhanded, hcalled]
  | served r serial hr hrunning hqueue hheld hhanded hcalls hupdating =>
    rw [hcalls, hhanded, hcalled, List.map_append]
    rfl
  | handed r serial hr hqueue hheld hhanded hcalls hupdating =>
    rw [hcalls, hhanded, hcalled, List.map_append]
    rfl

/-- The request that is taken is held or handed over, and the one that is handed over was held. -/
theorem ledger (hholding : Holding s.held σ) (hledger : s.queue.Ledger s.published s.gone)
    (hpublished : s'.published = s.published) (hdropped : s'.dropped = s.dropped) :
    s'.queue.Ledger s'.published s'.gone := by
  rw [hpublished]
  cases h with
  | nothing hqueue hheld hhanded hcalls =>
    unfold gone
    rw [hqueue, hheld, hhanded, hdropped]
    exact hledger
  | took r hr hrunning hqueue hheld hhanded hcalls =>
    rw [hqueue]
    refine (hledger.remove hr).perm (List.perm_iff_count.2 fun a => ?_)
    unfold gone
    rw [hheld, hhanded, hdropped]
    simp only [List.map_append, List.map_cons, List.map_nil, List.count_append]
    omega
  | served r serial hr hrunning hqueue hheld hhanded hcalls hupdating =>
    rw [hqueue]
    refine (hledger.remove hr).perm (List.perm_iff_count.2 fun a => ?_)
    unfold gone
    rw [hheld, hhanded, hdropped]
    simp only [List.count_append]
    omega
  | handed r serial hr hqueue hheld hhanded hcalls hupdating =>
    rw [hqueue]
    refine hledger.perm (List.perm_iff_count.2 fun a => ?_)
    -- what is held by others stays held
    have hsplit := ((List.filter_append_perm (fun x => decide (x.1 = who)) s.held).map
      (·.2)).count_eq a
    rw [hholding.filter_eq hr] at hsplit
    have hothers : (s.held.filter fun x => x.1 ≠ who) =
        s.held.filter fun x => !decide (x.1 = who) := List.filter_congr fun x _ => decide_not
    unfold gone
    rw [hheld, hhanded, hdropped, hothers]
    simp only [List.map_append, List.map_cons, List.map_nil, List.count_append] at hsplit ⊢
    omega

end Dealt

section

variable (who : Nat) (x : Option Ticket × Dispatcher) (s : Shift)

theorem pool_ran : (s.ran who x).pool = s.pool.changeDispatcher fun _ => x.2 := by
  rcases x with ⟨_ | t, d⟩ <;> rfl

theorem published_ran : (s.ran who x).published = s.published := by
  rcases x with ⟨_ | t, d⟩ <;> rfl

theorem dropped_ran : (s.ran who x).dropped = s.dropped := by
  rcases x with ⟨_ | t, d⟩ <;> rfl

end

/-- What a move makes of the dispatcher. -/
inductive Moved (s : Shift) : Move → Dispatcher → Prop where
  | same {m : Move} (hm : s.returned m = none) : Moved s m s.dispatcher
  | offered (id : String) (t : Task) : Moved s (.publish id) (s.dispatcher.offer s.pool.now t).2
  | setConsumer : Moved s .setConsumer s.dispatcher.setConsumer.2
  | topUp : Moved s .topUp s.dispatcher.topUp
  | went {who : Nat} {place place' : Standing} {x : Option Ticket × Dispatcher}
      (hgoes : Dispatcher.Goes s.pool.now who
        { s.dispatcher with ready := s.dispatcher.ready.erase who } place x place') :
      Moved s (.run who) x.2
  | finished {who : Nat} {t : Ticket}
      (ht : s.dispatcher.routines.find? who = some (.updating t)) :
      Moved s (.finish who) (s.dispatcher.finish who t)
  | tryLock (id : String) : Moved s (.tryLock id) (s.dispatcher.tryAcquire s.pool.now id).2
  | lock (id : String) : Moved s (.lock id) { s.dispatcher with
      locks := (s.locks.acquire s.pool.now id s.dispatcher.nextRoutine).2
      nextRoutine := s.dispatcher.nextRoutine + 1 }
  | unlock {t : Ticket} (ht : t ∈ s.guards) : Moved s (.unlock t) (s.dispatcher.release t)
  | touch (id : String) : Moved s (.touch id) (s.dispatcher.touch s.pool.now id)
  | sweep : Moved s .sweep (s.dispatcher.sweep s.pool.now)
  | shutdown : Moved s .shutdown s.dispatcher.shutdown

/-! ## The dispatcher's own order -/

/-- The dispatcher lets the first who can go on do so. -/
theorem step_eq_run {rest : List Nat} (hready : s.dispatcher.ready = who :: rest) :
    (s.apply (.run who)).dispatcher = (s.dispatcher.step s.pool.now).2 := by
  have hrun : s.apply (.run who) = s.ran who (s.turn who) :=
    if_pos (hready ▸ List.mem_cons_self)
  unfold Dispatcher.step
  rw [hrun, hready]
  show (s.ran who (s.turn who)).pool.dispatcher = _
  rw [pool_ran]
  show (s.turn who).2 = _
  unfold turn
  rw [hready, List.erase_cons_head]

theorem resume_ready (now : Instant) (d : Dispatcher) (l : List Nat) :
    { d with ready := l }.resume now who =
      ((d.resume now who).1, { (d.resume now who).2 with ready := l }) := by
  unfold Dispatcher.resume Dispatcher.look
  dsimp only
  split
  · split
    · rfl
    · split
      · rfl
      · split <;> rfl
  · rfl
  · rfl

theorem resumeAll_ready (now : Instant) (d : Dispatcher) (l l' : List Nat) :
    { d with ready := l' }.resumeAll now l = d.resumeAll now l := by
  induction l generalizing d with
  | nil => rfl
  | cons who rest ih =>
    unfold Dispatcher.resumeAll
    rw [resume_ready]
    rcases d.resume now who with ⟨_ | t, d'⟩
    · exact ih d'
    · rfl

/-- The dispatcher lets the first who can go on do so, one after the other, until one of them gets
to an update. -/
theorem next_eq_runs (s : Shift) : ∃ ran, ran <+: s.dispatcher.ready ∧
    (s.after (ran.map .run)).dispatcher = (s.dispatcher.next s.pool.now).2 := by
  have hruns : ∀ (l : List Nat) (s : Shift), s.dispatcher.ready = l → ∃ ran, ran <+: l ∧
      (s.after (ran.map .run)).dispatcher = (s.dispatcher.resumeAll s.pool.now l).2 := by
    intro l
    induction l with
    | nil =>
      intro s hready
      refine ⟨[], List.prefix_rfl, ?_⟩
      show s.dispatcher = { s.dispatcher with ready := [] }
      rw [← hready]
    | cons who rest ih =>
      intro s hready
      have hrun := step_eq_run hready
      have hnow : (s.apply (.run who)).pool.now = s.pool.now := by
        show (if who ∈ s.dispatcher.ready then s.ran who (s.turn who) else s).pool.now = _
        split
        · rw [pool_ran]
          rfl
        · rfl
      unfold Dispatcher.step at hrun
      rw [hready] at hrun
      dsimp only at hrun
      rw [resume_ready] at hrun
      unfold Dispatcher.resumeAll
      rcases hresume : s.dispatcher.resume s.pool.now who with ⟨_ | t, d⟩
      · rw [hresume] at hrun
        obtain ⟨ran, hran, heq⟩ := ih (s.apply (.run who)) (congrArg (·.ready) hrun)
        refine ⟨who :: ran, List.cons_prefix_cons.2 ⟨rfl, hran⟩, heq.trans ?_⟩
        rw [hrun, hnow, resumeAll_ready]
      · rw [hresume] at hrun
        exact ⟨[who], List.cons_prefix_cons.2 ⟨rfl, List.nil_prefix⟩, hrun⟩
  exact hruns _ s rfl

namespace Kept

variable (h : s.Kept)

include h

/-- Every turn does one of these to the requests. -/
theorem dealt (who : Nat) : Dealt who s (s.apply (.run who)) := by
  show Dealt who s (if who ∈ s.dispatcher.ready then _ else s)
  by_cases hwho : who ∈ s.dispatcher.ready
  · rw [if_pos hwho]
    obtain ⟨σ, holder, hstaffed⟩ := h.staffed
    exact hstaffed.dealt h.ledger.numbered_entries.nodup hwho
  · rw [if_neg hwho]
    exact .nothing rfl rfl rfl rfl

/-- Nothing comes of a move but this. -/
theorem moved (m : Move) : Moved s m (s.apply m).dispatcher := by
  obtain ⟨σ, holder, hstaffed⟩ := h.staffed
  cases m with
  | publish id =>
    show Moved s _ (s.pool.perform (publishRequest id)).2.dispatcher
    rcases h.wellKept.publish_cases id with ⟨-, heq⟩ | ⟨-, t, -, -, -, heq⟩
    · rw [heq]
      exact .same rfl
    · rw [heq]
      exact .offered id t
  | setConsumer => exact .setConsumer
  | topUp => exact .topUp
  | run who =>
    show Moved s _ (if who ∈ s.dispatcher.ready then s.ran who (s.turn who) else s).pool.dispatcher
    by_cases hwho : who ∈ s.dispatcher.ready
    · obtain ⟨place, hgoes⟩ := hstaffed.turn_goes hwho
      rw [if_pos hwho, pool_ran]
      exact .went hgoes
    · rw [if_neg hwho]
      exact .same rfl
  | finish who =>
    cases hreturned : s.returned (.finish who) with
    | none =>
      rw [apply_finish_of_none hreturned]
      exact .same hreturned
    | some t =>
      rw [apply_finish (returned_finish.1 hreturned)]
      exact .finished (returned_finish.1 hreturned)
  | tryLock id => exact .tryLock id
  | lock id => exact .lock id
  | unlock t =>
    cases hreturned : s.returned (.unlock t) with
    | none =>
      rw [apply_unlock_of_none hreturned]
      exact .same hreturned
    | some t' =>
      rw [apply_unlock (returned_unlock.1 hreturned).2]
      exact .unlock (returned_unlock.1 hreturned).2
  | touch id => exact .touch id
  | sweep => exact .sweep
  | shutdown => exact .shutdown
  | elsewhere step =>
    have hsame : (s.apply (.elsewhere step)).dispatcher = s.dispatcher := by
      show (if step.part = .dispatcher then s.pool else step.apply s.pool).dispatcher = _
      split
      · rfl
      · next hpart => exact Step.dispatcher_apply s.pool hpart
    rw [hsame]
    exact .same rfl

/-! ## What a shift keeps -/

/-- The dispatcher changes, but not the requests. -/
theorem frame {s' : Shift} {d : Dispatcher} (hpool : s'.pool = s.pool.changeDispatcher fun _ => d)
    (hqueue : d.queue = s.queue) (hpublished : s'.published = s.published)
    (hgone : s'.gone = s.gone)
    (hcalled : s'.calls = s'.handed.map (·.chainTaskId))
    (hstaffed : ∃ σ holder, s'.Staffed σ holder) : s'.Kept := by
  have hsame : s'.queue = s.queue := (congrArg (·.queue) hpool).trans hqueue
  refine ⟨?_, ?_, hcalled, hstaffed⟩
  · rw [hpool]
    refine h.wellKept.of_queue ?_ ?_
    · rw [hqueue]
      exact h.ledger.coherent
    · rw [hqueue]
      exact List.Subset.refl _
  · rw [hsame, hpublished, hgone]
    exact h.ledger

/-- A request that is accepted is queued. -/
theorem publish (id : String) : (s.apply (.publish id)).Kept := by
  have hunfold : s.apply (.publish id) = { s with
      pool := (s.pool.perform (publishRequest id)).2
      published := s.published ++ if (s.pool.perform (publishRequest id)).1 then
        (s.pool.perform (publishRequest id)).2.queue.departed s.queue else [] } := rfl
  have hwellKept : (s.pool.perform (publishRequest id)).2.WellKept := h.wellKept.publish id
  rw [hunfold]
  rcases h.wellKept.publish_cases id with ⟨-, heq⟩ | ⟨-, t, -, rfl, hfree, heq⟩
  · rw [heq]
    show Kept { s with published := s.published ++ [] }
    rw [List.append_nil]
    exact h
  · obtain ⟨σ, holder, hstaffed⟩ := h.staffed
    obtain ⟨σ', hmanned, halike⟩ := hstaffed.manned.offer s.pool.now t
    have hledger := h.ledger.offer s.pool.now t
    rw [(h.ledger.coherent.offer_of_notMem s.pool.now hfree).1] at hledger
    have hrequest : (s.pool.offer t).2.queue.departed s.queue =
        [s.queue.requestFor s.pool.now t] := by
      rw [Pool.queue_offer]
      exact h.ledger.coherent.departed_offer s.pool.now hfree
    rw [heq] at hwellKept ⊢
    dsimp only
    rw [hrequest]
    refine ⟨hwellKept, ?_, h.called, σ', holder, hstaffed.alike halike hmanned ?_ rfl rfl⟩
    · show (s.pool.offer t).2.queue.Ledger _ _
      rw [Pool.queue_offer]
      exact hledger
    · have hlocks : (s.pool.offer t).2.locks = s.locks := Dispatcher.locks_offer _ _ _
      show (s.pool.offer t).2.locks.Secured _ _ _
      rw [hlocks]
      exact hstaffed.secured

/-- A turn moves a request at most from one place to the next. -/
theorem run (who : Nat) : (s.apply (.run who)).Kept := by
  have hdealt := h.dealt who
  by_cases hwho : who ∈ s.dispatcher.ready
  · have hrun : s.apply (.run who) = s.ran who (s.turn who) := if_pos hwho
    obtain ⟨σ, holder, hstaffed⟩ := h.staffed
    obtain ⟨place, hgoes⟩ := hstaffed.turn_goes hwho
    obtain ⟨holder', hstaffed'⟩ := hstaffed.ran h.ledger.numbered_entries.nodup hwho hgoes
    rw [hrun] at hdealt ⊢
    have hledger := hdealt.ledger hstaffed.holding h.ledger (published_ran who _ s)
      (dropped_ran who _ s)
    refine ⟨?_, hledger, hdealt.called h.called, _, holder', hstaffed'⟩
    have hqueue : (s.ran who (s.turn who)).queue = (s.turn who).2.queue :=
      congrArg Pool.queue (pool_ran who _ s)
    rw [pool_ran]
    exact h.wellKept.of_queue (hqueue ▸ hledger.coherent) (hqueue ▸ hdealt.ids_subset)
  · have hrun : s.apply (.run who) = s := if_neg hwho
    rw [hrun]
    exact h

/-- Every move keeps what holds at all times. -/
theorem apply (m : Move) : (s.apply m).Kept := by
  obtain ⟨σ, holder, hstaffed⟩ := h.staffed
  cases m with
  | publish id => exact h.publish id
  | run who => exact h.run who
  | setConsumer =>
    refine h.frame rfl rfl rfl rfl h.called ⟨σ, holder, ?_⟩
    exact hstaffed.alike (.refl σ) (hstaffed.manned.frame rfl rfl rfl rfl rfl) hstaffed.secured rfl
      rfl
  | topUp =>
    obtain ⟨σ', hmanned, halike, -⟩ := hstaffed.manned.topUp
    refine h.frame rfl (Dispatcher.queue_topUp _) rfl rfl h.called ⟨σ', holder, ?_⟩
    refine hstaffed.alike halike hmanned ?_ rfl rfl
    show s.dispatcher.topUp.locks.Secured _ _ _
    rw [Dispatcher.locks_topUp]
    exact hstaffed.secured
  | finish who =>
    cases hreturned : s.returned (.finish who) with
    | none =>
      rw [apply_finish_of_none hreturned]
      exact h
    | some t =>
      have ht := returned_finish.1 hreturned
      have hstaffed' := hstaffed.finish ht
      rw [apply_finish ht] at hstaffed' ⊢
      exact h.frame rfl rfl rfl rfl h.called hstaffed'
  | tryLock id =>
    obtain ⟨holder', hstaffed'⟩ := hstaffed.tryLock id
    exact h.frame (d := (s.dispatcher.tryAcquire s.pool.now id).2) rfl rfl rfl rfl h.called
      ⟨σ, holder', hstaffed'⟩
  | lock id => exact h.frame rfl rfl rfl rfl h.called (hstaffed.lock id)
  | unlock t =>
    cases hreturned : s.returned (.unlock t) with
    | none =>
      rw [apply_unlock_of_none hreturned]
      exact h
    | some t' =>
      obtain ⟨rfl, ht⟩ := returned_unlock.1 hreturned
      have hstaffed' := hstaffed.unlock ht
      rw [apply_unlock ht] at hstaffed' ⊢
      exact h.frame (d := s.dispatcher.release t') rfl rfl rfl rfl h.called hstaffed'
  | touch id =>
    refine h.frame rfl rfl rfl rfl h.called ⟨σ, holder, ?_⟩
    exact hstaffed.alike (.refl σ) (hstaffed.manned.frame rfl rfl rfl rfl rfl)
      (hstaffed.secured.same (hstaffed.secured.sound.touch s.pool.now id)) rfl rfl
  | sweep =>
    have hledger := h.ledger.prune s.pool.now
    unfold gone at hledger
    rw [List.append_assoc] at hledger
    refine ⟨h.wellKept.dispatch .sweep, hledger, h.called, σ, holder, ?_⟩
    exact hstaffed.alike (.refl σ) (hstaffed.manned.frame rfl rfl rfl rfl rfl)
      (hstaffed.secured.same (hstaffed.secured.sound.prune s.pool.now "")) rfl rfl
  | shutdown =>
    obtain ⟨σ', hmanned, halike⟩ := hstaffed.manned.shutdown
    exact h.frame rfl rfl rfl rfl h.called
      ⟨σ', holder, hstaffed.alike halike hmanned hstaffed.secured rfl rfl⟩
  | elsewhere step =>
    have hunfold : s.apply (.elsewhere step) = { s with
        pool := if step.part = .dispatcher then s.pool else step.apply s.pool } := rfl
    rw [hunfold]
    by_cases hpart : step.part = .dispatcher
    · rw [if_pos hpart]
      exact h
    · have hd := Step.dispatcher_apply s.pool hpart
      rw [if_neg hpart]
      refine ⟨h.wellKept.step step, ?_, h.called, σ, holder, ?_, ?_, hstaffed.guests,
        hstaffed.holding⟩
      · show (step.apply s.pool).dispatcher.queue.Ledger _ _
        rw [hd]
        exact h.ledger
      · show (step.apply s.pool).dispatcher.Manned _
        rw [hd]
        exact hstaffed.manned
      · show (step.apply s.pool).dispatcher.locks.Secured _ _ _
        rw [hd]
        exact hstaffed.secured

/-- A whole run keeps it, too. -/
theorem after (moves : List Move) : (s.after moves).Kept := by
  induction moves generalizing s with
  | nil => exact h
  | cons m rest ih => exact ih (h.apply m)

end Kept

/-- What holds at all times holds of every shift that began at a new pool. -/
theorem Since.kept {start : Pool} (hnew : start.IsNew) (h : s.Since start) : s.Kept := by
  obtain ⟨moves, rfl⟩ := h
  exact (kept_opened hnew).after moves

end Shift

end ComputePool
