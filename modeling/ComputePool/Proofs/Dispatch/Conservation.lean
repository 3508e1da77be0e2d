import ComputePool.Proofs.Dispatch.Handover
import Mathlib.Data.Multiset.AddSub

/-!
# What the dispatcher promises

Whatever happens in a shift, every request that was accepted is queued, held by one routine that
waits for the lock of its task, handed to the consumer, or dropped because of its age; the consumer
is called only by the one who has the lock; there are no more routines than there should be; and
after a shutdown requests that were taken are still handed over, while the others stay queued
(`Shift.requests_conserved`).
-/

namespace ComputePool.Shift

variable {start : Pool} {s : Shift} {σ : Nat → Standing} {holder : String → Option Holder}
  {who : Nat} {id : String} {t : Ticket} {x y : Holder} {m : Move}

/-! ## Who has a lock -/

/-- Who has the lock of an id: somebody outside, a routine that is about to update the task, or one
that does so. -/
inductive Holds (s : Shift) (id : String) : Holder → Prop where
  | guard {t : Ticket} (ht : t ∈ s.guards) (hid : t.id = id) : Holds s id .outside
  | granted {who : Nat} {t : Ticket} (hwho : s.dispatcher.routines.find? who = some (.waiting t))
      (hready : who ∈ s.dispatcher.ready) (hid : t.id = id) : Holds s id (.inside who)
  | updating {who : Nat} {t : Ticket}
      (hwho : s.dispatcher.routines.find? who = some (.updating t)) (hid : t.id = id) :
      Holds s id (.inside who)

/-- Who holds a lock is the one that the books name. -/
theorem Staffed.holds_iff (h : s.Staffed σ holder) : s.Holds id x ↔ holder id = some x := by
  constructor
  · intro hx
    cases hx with
    | guard ht hid => exact hid ▸ h.secured.holder_of_guard ht
    | granted hwho hready hid =>
      rw [h.manned.activity] at hwho
      rw [h.manned.ready.mem_iff] at hready
      refine (h.secured.inside id _).2 ⟨_, ?_, hid⟩
      show (σ _).stake = _
      generalize σ _ = place at hwho hready
      cases place with
      | granted r serial => rw [← Activity.waiting.inj (Option.some.inj hwho)]; rfl
      | _ => simp [Standing.activity, Standing.isReady] at hwho hready
    | updating hwho hid =>
      exact (h.secured.inside id _).2 ⟨_, congrArg Standing.stake (h.updating hwho), hid⟩
  · intro hx
    cases x with
    | outside =>
      obtain ⟨t, ht, hid⟩ := List.mem_map.1 ((h.secured.outside id).2 hx)
      exact .guard ht hid
    | inside who =>
      obtain ⟨t, hstake, hid⟩ := (h.secured.inside id who).1 hx
      have hactivity := h.manned.activity who
      have hready := h.manned.ready.mem_iff who
      have hstake : (σ who).stake = some (.has t) := hstake
      cases hplace : σ who with
      | granted r serial =>
        rw [hplace] at hactivity hready hstake
        refine .granted hactivity (hready.2 rfl) ?_
        rw [← hid, ← Stake.has.inj (Option.some.inj hstake)]
      | updating t' =>
        rw [hplace] at hactivity hstake
        refine .updating hactivity ?_
        rw [← hid, ← Stake.has.inj (Option.some.inj hstake)]
      | _ =>
        rw [hplace] at hstake
        exact absurd hstake (by simp [Standing.stake])

namespace Kept

variable (h : s.Kept)

include h

/-- A lock has one holder. -/
theorem holds_unique (hx : s.Holds id x) (hy : s.Holds id y) : x = y := by
  obtain ⟨σ, holder, hstaffed⟩ := h.staffed
  exact Option.some.inj ((hstaffed.holds_iff.1 hx).symm.trans (hstaffed.holds_iff.1 hy))

/-- A lock is held if somebody holds it. -/
theorem isHeld_iff (id : String) : s.locks.isHeld id = true ↔ ∃ x, s.Holds id x := by
  obtain ⟨σ, holder, hstaffed⟩ := h.staffed
  rw [hstaffed.secured.isHeld, Option.isSome_iff_exists]
  exact exists_congr fun x => hstaffed.holds_iff.symm

/-- Whoever waits for a lock waits for somebody who has it. -/
theorem holds_of_behind {r : Request} (hr : (who, r) ∈ s.held)
    (hbehind : s.behind who r.chainTaskId ≠ 0) : ∃ x, s.Holds r.chainTaskId x := by
  obtain ⟨σ, holder, hstaffed⟩ := h.staffed
  have hwho : who ∉ s.dispatcher.ready := fun hmem => hbehind (if_pos hmem)
  rw [← h.isHeld_iff]
  by_contra hfree
  have hmem := h.mem_line hr hwho
  rw [hstaffed.secured.sound.line_of_free (Bool.eq_false_iff.2 hfree)] at hmem
  exact absurd hmem List.not_mem_nil

/-- The consumer is called when a routine begins an update, and at no other time. -/
theorem calls_apply (m : Move) : (s.apply m).calls = s.calls ∨
    ∃ who t, m = .run who ∧ (s.apply m).calls = s.calls ++ [t.id] ∧
      (s.apply m).dispatcher.routines.find? who = some (.updating t) := by
  by_cases hm : ∃ who, m = .run who
  · obtain ⟨who, rfl⟩ := hm
    cases h.dealt who with
    | nothing hqueue hheld hhanded hcalls => exact .inl hcalls
    | took r hr hrunning hqueue hheld hhanded hcalls => exact .inl hcalls
    | served r serial hr hrunning hqueue hheld hhanded hcalls hupdating =>
      exact .inr ⟨who, _, rfl, hcalls, hupdating⟩
    | handed r serial hr hqueue hheld hhanded hcalls hupdating =>
      exact .inr ⟨who, _, rfl, hcalls, hupdating⟩
  · exact .inl (notes_apply fun who heq => hm ⟨who, heq⟩).1.2.2

/-- A routine that holds a request waits for the lock of its task. -/
theorem waiting {r : Request} (hr : (who, r) ∈ s.held) :
    ∃ serial, s.dispatcher.routines.find? who = some (.waiting ⟨r.chainTaskId, serial⟩) := by
  obtain ⟨σ, holder, hstaffed⟩ := h.staffed
  have hrequest := (hstaffed.holding.mem_iff who r).1 hr
  rw [hstaffed.manned.activity]
  generalize σ who = place at hrequest
  cases place with
  | queued r' serial => exact ⟨serial, by rw [← Option.some.inj hrequest]; rfl⟩
  | granted r' serial => exact ⟨serial, by rw [← Option.some.inj hrequest]; rfl⟩
  | _ => exact absurd hrequest (by simp [Standing.request?])

/-! ## Settings -/

/-- The number of routines to be kept never changes, and a shutdown is for good. -/
theorem settings_apply (m : Move) :
    (s.apply m).dispatcher.poolSize = s.dispatcher.poolSize ∧
      (s.dispatcher.isShutdown = true → (s.apply m).dispatcher.isShutdown = true) := by
  have hmoved := h.moved m
  generalize (s.apply m).dispatcher = d at hmoved
  cases hmoved with
  | offered id t =>
    unfold Dispatcher.offer
    rcases s.dispatcher.queue.offer s.pool.now t with ⟨_ | _, q⟩
    · exact ⟨rfl, fun hshutdown => hshutdown⟩
    · exact ⟨rfl, fun hshutdown => hshutdown⟩
  | topUp =>
    unfold Dispatcher.topUp
    split
    · generalize s.dispatcher.poolSize - s.dispatcher.active = n
      -- by induction on the routines that are started
      induction n with
      | zero => exact ⟨rfl, fun hshutdown => hshutdown⟩
      | succ n ih => exact ih
    · exact ⟨rfl, fun hshutdown => hshutdown⟩
  | went hgoes => cases hgoes <;> exact ⟨rfl, fun hshutdown => hshutdown⟩
  | shutdown => exact ⟨rfl, fun _ => rfl⟩
  | _ => exact ⟨rfl, fun hshutdown => hshutdown⟩

/-! ## Requests that stay queued -/

/-- After a shutdown a request leaves the queue only in a sweep. -/
theorem queued_apply (hshutdown : s.dispatcher.isShutdown = true) {r : Request}
    (hr : r ∈ s.queue.entries) (m : Move) :
    r ∈ (s.apply m).queue.entries ∨ r ∈ (s.apply m).dropped := by
  have hmoved := h.moved m
  by_cases hm : m = .sweep
  · subst hm
    by_cases hkept : r ∈ (s.queue.prune s.pool.now).2.entries
    · exact .inl hkept
    · exact .inr (List.mem_append_right _ (List.mem_filter.2 ⟨hr, by simpa using hkept⟩))
  · refine .inl ?_
    show r ∈ (s.apply m).dispatcher.queue.entries
    have hr : r ∈ s.dispatcher.queue.entries := hr
    generalize (s.apply m).dispatcher = d at hmoved
    cases hmoved with
    | offered id t =>
      rw [Dispatcher.queue_offer]
      unfold UpdateQueue.offer
      split
      · exact hr
      · exact List.mem_append_left _ hr
    | topUp =>
      rw [Dispatcher.queue_topUp]
      exact hr
    | went hgoes =>
      cases hgoes with
      | queued hrunning => exact absurd (hrunning.symm.trans hshutdown) (by simp)
      | entered hrunning => exact absurd (hrunning.symm.trans hshutdown) (by simp)
      | _ => exact hr
    | sweep => exact absurd rfl hm
    | _ => exact hr

/-- So it is however long the shift goes on. -/
theorem queued_after (hshutdown : s.dispatcher.isShutdown = true) (moves : List Move) :
    (s.after moves).dispatcher.isShutdown = true ∧ s.dropped ⊆ (s.after moves).dropped ∧
      ∀ r ∈ s.queue.entries, r ∈ (s.after moves).queue.entries ∨ r ∈ (s.after moves).dropped := by
  induction moves generalizing s with
  | nil => exact ⟨hshutdown, List.Subset.refl _, fun r hr => .inl hr⟩
  | cons m rest ih =>
    have hdropped : s.dropped ⊆ (s.apply m).dropped := by
      by_cases hm : m = .sweep
      · rw [hm]
        exact List.subset_append_left _ _
      · rw [dropped_apply hm]
        exact List.Subset.refl _
    obtain ⟨hstill, hmore, hqueued⟩ := ih (h.apply m) ((h.settings_apply m).2 hshutdown)
    refine ⟨hstill, List.Subset.trans hdropped hmore, fun r hr => ?_⟩
    rcases h.queued_apply hshutdown hr m with hmem | hmem
    · exact hqueued r hmem
    · exact .inr (hmore hmem)

/-! ## Publications -/

/-- A publication is accepted for a stored task without a queued request, and brings one request. -/
theorem publish_iff (id : String) :
    ((s.pool.perform (publishRequest id)).1 = true ↔ id ≠ "" ∧ (s.pool.store.task? id).isSome ∧
      ∀ r ∈ s.queue.entries, r.chainTaskId ≠ id) ∧
    ((s.pool.perform (publishRequest id)).1 = true →
      ∃ r : Request, r.chainTaskId = id ∧ (s.apply (.publish id)).published = s.published ++ [r]) ∧
    ((s.pool.perform (publishRequest id)).1 = false → s.apply (.publish id) = s) := by
  have hunfold : s.apply (.publish id) = { s with
      pool := (s.pool.perform (publishRequest id)).2
      published := s.published ++ if (s.pool.perform (publishRequest id)).1 then
        (s.pool.perform (publishRequest id)).2.queue.departed s.queue else [] } := rfl
  rw [hunfold]
  rcases h.wellKept.publish_cases id with ⟨habsorbs, heq⟩ | ⟨habsorbs, t, ht, rfl, hmem, heq⟩
  · rw [heq]
    refine ⟨iff_of_false (by simp) fun ⟨hnamed, hknown, hnone⟩ => ?_,
      fun hno => absurd hno (by simp), fun _ => ?_⟩
    · rcases habsorbs with hempty | hqueued | hunknown
      · exact hnamed hempty
      · exact UpdateQueue.notMem_ids_iff.2 hnone hqueued
      · rw [hunknown] at hknown
        exact absurd hknown (by simp)
    · show { s with published := s.published ++ [] } = s
      rw [List.append_nil]
  · rw [heq]
    refine ⟨iff_of_true rfl ⟨fun hempty => habsorbs (.inl hempty), by rw [ht]; rfl,
      UpdateQueue.notMem_ids_iff.1 hmem⟩, fun _ => ⟨s.queue.requestFor s.pool.now t, rfl, ?_⟩,
      fun hno => absurd hno (by simp)⟩
    show s.published ++ (s.pool.offer t).2.queue.departed s.queue = _
    rw [Pool.queue_offer]
    exact congrArg _ (h.ledger.coherent.departed_offer s.pool.now hmem)

end Kept

theorem Since.poolSize (hnew : start.IsNew) (h : s.Since start) :
    s.dispatcher.poolSize = start.dispatcher.poolSize := by
  obtain ⟨moves, rfl⟩ := h
  -- by induction on the moves
  have hafter : ∀ (moves : List Move) (s : Shift), s.Kept →
      (s.after moves).dispatcher.poolSize = s.dispatcher.poolSize := by
    intro moves
    induction moves with
    | nil => exact fun _ _ => rfl
    | cons m rest ih => exact fun s hs => (ih _ (hs.apply m)).trans (hs.settings_apply m).1
  exact hafter moves _ (kept_opened hnew)

/-- No request is lost or served twice, and no update gets in the way of another, whatever happens
in a shift.

* Every accepted request is queued, held, handed over or dropped, and this once. Who holds a request
  is a routine that waits for the lock of its task, and holds no other. The consumer was called once
  for each request that was handed over. Only a sweep drops requests, those that are too old.
* A lock is held if it has a holder, and it has one at most. While a routine updates a task, from
  the call of the consumer on, it is the holder of the lock.
* There are never more routines than there should be, and not fewer after a top-up, unless there is
  no consumer or was a shutdown.
* A publication is accepted exactly for an id that is not empty, of a stored task for which no
  request is queued. It brings one request, and changes nothing if it is refused.
* After a shutdown a queued request stays queued or is dropped. A request that is held, then as
  ever, is handed over once its routine goes on after the lock was given back; and as long as it
  cannot go on, somebody has the lock. -/
theorem requests_conserved (hnew : start.IsNew) (h : s.Since start) :
    (s.published.Nodup ∧
      (s.published : Multiset Request) =
        s.queue.entries + s.held.map (·.2) + s.handed + s.dropped ∧
      (s.held.map (·.1)).Nodup ∧
      (∀ who r, (who, r) ∈ s.held → ∃ serial,
        s.dispatcher.routines.find? who = some (.waiting ⟨r.chainTaskId, serial⟩)) ∧
      s.calls = s.handed.map (·.chainTaskId) ∧
      (∀ m, m ≠ .sweep → (s.apply m).dropped = s.dropped) ∧
      (s.apply .sweep).dropped = s.dropped ++ s.queue.entries.filter fun r =>
        (s.queue.ttl.toNanos : Int) ≤ s.pool.now.nanosSince r.enqueuedAt) ∧
    ((∀ id, s.locks.isHeld id = true ↔ ∃ x, s.Holds id x) ∧
      (∀ id x y, s.Holds id x → s.Holds id y → x = y) ∧ (s.guards.map (·.id)).Nodup ∧
      (∀ who t, s.dispatcher.routines.find? who = some (.updating t) →
        ∀ x, s.Holds t.id x ↔ x = .inside who) ∧
      ∀ m, (s.apply m).calls = s.calls ∨ ∃ who t, m = .run who ∧
        (s.apply m).calls = s.calls ++ [t.id] ∧
        (s.apply m).dispatcher.routines.find? who = some (.updating t) ∧
        ∀ x, (s.apply m).Holds t.id x ↔ x = .inside who) ∧
    (s.dispatcher.active ≤ start.dispatcher.poolSize ∧
      (s.dispatcher.hasConsumer = true → s.dispatcher.isShutdown = false →
        (s.apply .topUp).dispatcher.active = start.dispatcher.poolSize)) ∧
    (∀ id, ((s.pool.perform (publishRequest id)).1 = true ↔
        id ≠ "" ∧ (s.pool.store.task? id).isSome ∧ ∀ r ∈ s.queue.entries, r.chainTaskId ≠ id) ∧
      ((s.pool.perform (publishRequest id)).1 = true → ∃ r : Request, r.chainTaskId = id ∧
        (s.apply (.publish id)).published = s.published ++ [r]) ∧
      ((s.pool.perform (publishRequest id)).1 = false → s.apply (.publish id) = s)) ∧
    (s.dispatcher.isShutdown = true → ∀ moves, ∀ r ∈ s.queue.entries,
      r ∈ (s.after moves).queue.entries ∨ r ∈ (s.after moves).dropped) ∧
    ∀ who r, (who, r) ∈ s.held →
      (s.behind who r.chainTaskId ≠ 0 → ∃ x, s.Holds r.chainTaskId x) ∧
      ∀ moves moves', s.behind who r.chainTaskId ≤ s.returns r.chainTaskId moves →
        .run who ∈ moves' → r ∈ (s.after (moves ++ moves')).handed := by
  have hkept := h.kept hnew
  have hpoolSize := h.poolSize hnew
  obtain ⟨σ, holder, hstaffed⟩ := hkept.staffed
  have hsole : ∀ {s : Shift}, s.Kept → ∀ {who t},
      s.dispatcher.routines.find? who = some (.updating t) →
      ∀ x, s.Holds t.id x ↔ x = .inside who := fun hs who t ht x =>
    ⟨fun hx => hs.holds_unique hx (.updating ht rfl), fun hx => hx ▸ .updating ht rfl⟩
  refine ⟨⟨hkept.ledger.numbered.nodup, ?_, hstaffed.holding.single, fun who r => hkept.waiting,
      hkept.called, fun m => dropped_apply, ?_⟩,
    ⟨hkept.isHeld_iff, fun id x y => hkept.holds_unique, hstaffed.secured.apart,
      fun who t => hsole hkept, fun m => ?_⟩,
    ⟨hpoolSize ▸ hstaffed.manned.few, ?_⟩, hkept.publish_iff,
    fun hshutdown moves => (hkept.queued_after hshutdown moves).2.2,
    fun who r hr => ⟨hkept.holds_of_behind hr, fun moves moves' => hkept.handed_after hr⟩⟩
  · have hconserved := Multiset.coe_eq_coe.2 hkept.ledger.conserved
    unfold gone at hconserved
    rw [hconserved]
    simp only [← Multiset.coe_add, Multiset.add_assoc]
  · show s.dropped ++ s.queue.departed (s.queue.prune s.pool.now).2 = _
    rw [UpdateQueue.departed_prune]
  · rcases hkept.calls_apply m with hsame | ⟨who, t, hm, hcalls, ht⟩
    · exact .inl hsame
    · exact .inr ⟨who, t, hm, hcalls, ht, hsole (hkept.apply m) ht⟩
  · obtain ⟨-, -, -, hfull⟩ := hstaffed.manned.topUp
    exact hpoolSize ▸ hfull

/-- A task whose lock is held from outside. Its request is taken by the only routine, which waits
for the lock. The task is published again, and then the routines are stopped. -/
def contended : Shift := (opened Pool.blank).after [.elsewhere (.insertTask (.plain "0x1")),
  .setConsumer, .tryLock "0x1", .publish "0x1", .topUp, .run 0, .publish "0x1", .shutdown]

/-- When the lock is given back, the first request is handed over, and the second stays queued. -/
theorem requests_conserved_contended :
    Pool.blank.IsNew ∧ contended.Since Pool.blank ∧ contended.dispatcher.isShutdown = true ∧
      ∃ r r' : Request, contended.published = [r, r'] ∧ contended.held = [(0, r)] ∧
        contended.returns "0x1" [.unlock ⟨"0x1", 0⟩] = 1 ∧
        r ∈ (contended.after ([.unlock ⟨"0x1", 0⟩] ++ [.run 0, .run 0])).handed ∧
        (contended.after ([.unlock ⟨"0x1", 0⟩] ++ [.run 0, .run 0])).queue.entries = [r'] := by
  have hsince : contended.Since Pool.blank := ⟨_, rfl⟩
  obtain ⟨-, -, -, -, -, hheld⟩ := requests_conserved Pool.isNew_blank hsince
  have hr : contended.held = [(0, _)] := rfl
  obtain ⟨-, hhanded⟩ := hheld 0 _ (hr ▸ List.mem_singleton.2 rfl)
  refine ⟨Pool.isNew_blank, hsince, rfl, _, _, rfl, rfl, rfl, ?_, rfl⟩
  exact hhanded [.unlock ⟨"0x1", 0⟩] [.run 0, .run 0] (by decide) List.mem_cons_self

end ComputePool.Shift
