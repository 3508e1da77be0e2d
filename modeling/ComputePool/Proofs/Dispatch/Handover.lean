import ComputePool.Proofs.Dispatch.Account

/-!
# A request that is held is handed over

A routine that took a request waits for the lock of its task. The line by a lock is served in order:
newcomers stand at its end, and the lock passes to the first in line each time it is given back
(`Kept.line_of_kept`, `Kept.line_of_returned`). So a routine need not wait for longer than until the
lock was given back once for everybody before it and once more (`Shift.behind`,
`Kept.behind_after`). Then it can go on, and hands its request over when it does
(`Kept.handed_after`).
-/

namespace ComputePool

namespace Locks

variable {ls ls' : Locks} {id : String} {held : Bool}

/-- Whoever stands in line for some lock stands there still, at the same place. -/
def Continues (ls ls' : Locks) : Prop := ∀ i, ls.line i <+: ls'.line i

theorem Continues.refl (ls : Locks) : ls.Continues ls := fun _ => List.prefix_rfl

/-- Where a lock gets a longer line, every line goes on as it was. -/
theorem Turns.continues {line : List Nat} (h : ls.Turns ls' id held line)
    (hline : ls.line id <+: line) : ls.Continues ls' := by
  intro i
  rw [h.line]
  split
  · next hi => exact hi ▸ hline
  · exact List.prefix_rfl

namespace Sound

variable (h : ls.Sound) (now : Instant)

include h

/-- Who takes a free lock changes no line. -/
theorem continues_tryAcquire (id : String) : ls.Continues (ls.tryAcquire now id).2 := by
  cases hheld : ls.isHeld id with
  | true =>
    obtain ⟨ls', heq, hturns⟩ := h.tryAcquire_of_held now id hheld
    rw [heq]
    exact hturns.continues List.prefix_rfl
  | false =>
    obtain ⟨t, ls', -, heq, rfl, -, hturns⟩ := h.acquire_of_free now id 0 hheld
    rw [heq]
    exact hturns.continues (h.line_of_free hheld ▸ List.prefix_rfl)

/-- Who stands in line does so at its end. -/
theorem continues_acquire (id : String) (who : Nat) :
    ls.Continues (ls.acquire now id who).2 := by
  cases hheld : ls.isHeld id with
  | true =>
    obtain ⟨t, ls', heq, rfl, -, hturns⟩ := h.acquire_of_held now id who hheld
    rw [heq]
    exact hturns.continues (List.prefix_append _ _)
  | false =>
    obtain ⟨t, ls', heq, -, rfl, -, hturns⟩ := h.acquire_of_free now id who hheld
    rw [heq]
    exact hturns.continues (h.line_of_free hheld ▸ List.prefix_rfl)

end Sound

end Locks

namespace Dispatcher

variable {d : Dispatcher} (now : Instant)

theorem ready_offer (t : Task) (d : Dispatcher) : d.ready <+: (d.offer now t).2.ready := by
  unfold offer
  rcases d.queue.offer now t with ⟨_ | _, q⟩
  · exact List.prefix_rfl
  · exact List.prefix_append _ _

theorem ready_topUp (d : Dispatcher) : d.ready <+: d.topUp.ready := by
  unfold topUp
  split
  · generalize d.poolSize - d.active = n
    -- by induction on the routines that are missing
    induction n with
    | zero => exact List.prefix_rfl
    | succ n ih => exact ih.trans (List.prefix_append _ _)
  · exact List.prefix_rfl

/-- A turn makes nobody else go on, and takes nobody else's turn. -/
theorem Goes.ready {who : Nat} {s s' : Standing} {x : Option Ticket × Dispatcher}
    (h : Goes now who d s x s') : x.2.ready = d.ready := by
  cases h <;> rfl

/-- Nobody is taken out of a line by a turn. -/
theorem Goes.continues {who : Nat} {s s' : Standing} {x : Option Ticket × Dispatcher}
    (hsound : d.locks.Sound) (h : Goes now who d s x s') : d.locks.Continues x.2.locks := by
  cases h with
  | queued hshutdown hr hheld hticket hturns => exact hturns.continues (List.prefix_append _ _)
  | entered hshutdown hr hfree hticket hturns =>
    exact hturns.continues (hsound.line_of_free hfree ▸ List.prefix_rfl)
  | _ => exact .refl _

end Dispatcher

namespace Shift

variable {s : Shift} {who : Nat} {r : Request} {id : String} {m : Move} {t : Ticket}

/-- How often moves give back the lock of an id. -/
def returns (id : String) : List Move → Shift → Nat
  | [], _ => 0
  | m :: rest, s =>
    (if (s.returned m).map (·.id) = some id then 1 else 0) + returns id rest (s.apply m)

/-- How often the lock of an id has to be given back before somebody who waits for it can go on. -/
def behind (who : Nat) (id : String) (s : Shift) : Nat :=
  if who ∈ s.dispatcher.ready then 0 else (s.locks.line id).idxOf who + 1

/-- The locks that are given back in two runs add up. -/
theorem returns_append (id : String) (moves moves' : List Move) (s : Shift) :
    s.returns id (moves ++ moves') = s.returns id moves + (s.after moves).returns id moves' := by
  induction moves generalizing s with
  | nil => exact (Nat.zero_add _).symm
  | cons m rest ih =>
    show _ + (s.apply m).returns id (rest ++ moves') = _ + (s.apply m).returns id rest + _
    rw [ih, ← Nat.add_assoc]
    rfl

/-! ## What moves leave alone -/

/-- Only turns move requests that were taken, and only a sweep drops requests. -/
theorem notes_apply (hm : ∀ who, m ≠ .run who) :
    ((s.apply m).held = s.held ∧ (s.apply m).handed = s.handed ∧ (s.apply m).calls = s.calls) ∧
      (m ≠ .sweep → (s.apply m).dropped = s.dropped) := by
  cases m with
  | run who => exact absurd rfl (hm who)
  | finish who =>
    cases hreturned : s.returned (.finish who) with
    | none =>
      rw [apply_finish_of_none hreturned]
      exact ⟨⟨rfl, rfl, rfl⟩, fun _ => rfl⟩
    | some t =>
      rw [apply_finish (returned_finish.1 hreturned)]
      exact ⟨⟨rfl, rfl, rfl⟩, fun _ => rfl⟩
  | unlock t =>
    cases hreturned : s.returned (.unlock t) with
    | none =>
      rw [apply_unlock_of_none hreturned]
      exact ⟨⟨rfl, rfl, rfl⟩, fun _ => rfl⟩
    | some t' =>
      rw [apply_unlock (returned_unlock.1 hreturned).2]
      exact ⟨⟨rfl, rfl, rfl⟩, fun _ => rfl⟩
  | sweep => exact ⟨⟨rfl, rfl, rfl⟩, fun hno => absurd rfl hno⟩
  | _ => exact ⟨⟨rfl, rfl, rfl⟩, fun _ => rfl⟩

/-- Only a sweep drops requests. -/
theorem dropped_apply (hm : m ≠ .sweep) : (s.apply m).dropped = s.dropped := by
  by_cases hrun : ∃ who, m = .run who
  · obtain ⟨who, rfl⟩ := hrun
    show (if who ∈ s.dispatcher.ready then s.ran who (s.turn who) else s).dropped = _
    split
    · exact dropped_ran _ _ _
    · rfl
  · exact (notes_apply fun who heq => hrun ⟨who, heq⟩).2 hm

namespace Kept

variable (h : s.Kept)

include h

/-- What was handed over stays so. -/
theorem handed_apply (m : Move) : s.handed <+: (s.apply m).handed := by
  by_cases hm : ∃ who, m = .run who
  · obtain ⟨who, rfl⟩ := hm
    cases h.dealt who with
    | nothing hqueue hheld hhanded hcalls => exact hhanded ▸ List.prefix_rfl
    | took r hr hrunning hqueue hheld hhanded hcalls => exact hhanded ▸ List.prefix_rfl
    | served r serial hr hrunning hqueue hheld hhanded hcalls hupdating =>
      exact hhanded ▸ List.prefix_append _ _
    | handed r serial hr hqueue hheld hhanded hcalls hupdating =>
      exact hhanded ▸ List.prefix_append _ _
  · obtain ⟨⟨-, hhanded, -⟩, -⟩ := notes_apply fun who heq => hm ⟨who, heq⟩
    exact ⟨[], by rw [List.append_nil, hhanded]⟩

/-- A request that was handed over stays so. -/
theorem handed_after_of_mem (hr : r ∈ s.handed) (moves : List Move) :
    r ∈ (s.after moves).handed := by
  induction moves generalizing s with
  | nil => exact hr
  | cons m rest ih => exact ih (h.apply m) ((h.handed_apply m).subset hr)

/-- A request that is held stays so, or is handed over in the turn of the routine that holds it. -/
theorem held_apply (hr : (who, r) ∈ s.held) (m : Move) :
    (who, r) ∈ (s.apply m).held ∨ r ∈ (s.apply m).handed := by
  by_cases hm : ∃ who, m = .run who
  · obtain ⟨who', rfl⟩ := hm
    cases h.dealt who' with
    | nothing hqueue hheld hhanded hcalls => exact .inl (hheld ▸ hr)
    | took r' hr' hrunning hqueue hheld hhanded hcalls =>
      exact .inl (hheld ▸ List.mem_append_left _ hr)
    | served r' serial hr' hrunning hqueue hheld hhanded hcalls hupdating => exact .inl (hheld ▸ hr)
    | handed r' serial hr' hqueue hheld hhanded hcalls hupdating =>
      rw [hheld, hhanded]
      by_cases hwho : who = who'
      · -- a routine holds one request
        obtain ⟨σ, holder, hstaffed⟩ := h.staffed
        have hrequest := (hstaffed.holding.mem_iff who r).1 hr
        rw [hwho, (hstaffed.holding.mem_iff who' r').1 hr'] at hrequest
        exact .inr (List.mem_append_right _ (List.mem_singleton.2 (Option.some.inj hrequest).symm))
      · exact .inl (List.mem_filter.2 ⟨hr, by simpa using hwho⟩)
  · rw [(notes_apply fun who heq => hm ⟨who, heq⟩).1.1]
    exact .inl hr

/-- Who can go on may do so until it does. -/
theorem ready_apply (hwho : who ∈ s.dispatcher.ready) (hm : m ≠ .run who) :
    who ∈ (s.apply m).dispatcher.ready := by
  have hmoved := h.moved m
  generalize (s.apply m).dispatcher = d at hmoved
  cases hmoved with
  | offered id t => exact (Dispatcher.ready_offer s.pool.now t s.dispatcher).subset hwho
  | topUp => exact s.dispatcher.ready_topUp.subset hwho
  | @went who' place place' x hgoes =>
    have hne : who ≠ who' := by
      rintro rfl
      exact hm rfl
    rw [hgoes.ready]
    exact (List.mem_erase_of_ne hne).2 hwho
  | finished ht => exact List.mem_cons_of_mem _ (List.mem_append_left _ hwho)
  | unlock ht => exact List.mem_append_left _ hwho
  | shutdown => exact List.mem_append_left _ hwho
  | _ => exact hwho

/-! ## Lines -/

/-- Where no lock is given back, nobody leaves a line. -/
theorem line_of_kept (hm : s.returned m = none) : s.locks.Continues (s.apply m).locks := by
  obtain ⟨σ, holder, hstaffed⟩ := h.staffed
  have hsound : s.dispatcher.locks.Sound := hstaffed.secured.sound
  have hmoved := h.moved m
  show s.dispatcher.locks.Continues (s.apply m).dispatcher.locks
  generalize (s.apply m).dispatcher = d at hmoved
  cases hmoved with
  | offered id t =>
    rw [Dispatcher.locks_offer]
    exact .refl _
  | topUp =>
    rw [Dispatcher.locks_topUp]
    exact .refl _
  | @went who place place' x hgoes =>
    exact hgoes.continues s.pool.now
      (d := { s.dispatcher with ready := s.dispatcher.ready.erase who }) hsound
  | @finished who t ht =>
    exact absurd (hm.symm.trans (returned_finish.2 ht)) (by simp)
  | tryLock id => exact hsound.continues_tryAcquire s.pool.now id
  | lock id => exact hsound.continues_acquire s.pool.now id _
  | unlock ht => exact absurd (hm.symm.trans (returned_unlock.2 ⟨rfl, ht⟩)) (by simp)
  | touch id => exact (hsound.touch s.pool.now id).continues List.prefix_rfl
  | sweep => exact (hsound.prune s.pool.now "").continues List.prefix_rfl
  | _ => exact .refl _

/-- A lock that is given back passes to the first in its line, who can go on then. No other line
changes. -/
theorem line_of_returned (hm : s.returned m = some t) :
    (∀ i, (s.apply m).locks.line i = if i = t.id then (s.locks.line i).tail else s.locks.line i) ∧
      ∀ w, (s.locks.line t.id).head? = some w → w ∈ (s.apply m).dispatcher.ready := by
  obtain ⟨σ, holder, hstaffed⟩ := h.staffed
  -- whoever gives the lock back has it
  have hlaw : s.locks.Has t → s.locks.isHeld t.id = true →
      (s.apply m).locks = (s.locks.release t).2 →
      (∀ w, (s.locks.release t).1 = some w → w ∈ (s.apply m).dispatcher.ready) →
      (∀ i, (s.apply m).locks.line i =
        if i = t.id then (s.locks.line i).tail else s.locks.line i) ∧
      ∀ w, (s.locks.line t.id).head? = some w → w ∈ (s.apply m).dispatcher.ready := by
    intro hhas hheld hlocks hready
    obtain ⟨locks, hrelease, hturns⟩ := hstaffed.secured.sound.release hhas hheld
    rw [hrelease] at hlocks hready
    refine ⟨fun i => ?_, hready⟩
    rw [hlocks, hturns.line]
    split
    · next hi => rw [hi]
    · rfl
  cases m with
  | finish who =>
    have ht := returned_finish.1 hm
    have hstake : (Standing.stake ∘ σ) who = some (.has t) :=
      congrArg Standing.stake (hstaffed.updating ht)
    have hhas : s.locks.Has t := hstaffed.secured.named hstake
    have hheld : s.locks.isHeld t.id = true := hstaffed.secured.isHeld_of_stake hstake
    refine hlaw hhas hheld ?_ fun w hw => ?_
    · rw [apply_finish ht]
      rfl
    · rw [apply_finish ht]
      refine List.mem_cons_of_mem _ (List.mem_append_right _ ?_)
      exact Option.mem_toList.2 hw
  | unlock t' =>
    obtain ⟨rfl, ht⟩ := returned_unlock.1 hm
    refine hlaw (hstaffed.secured.guarded _ ht)
      (hstaffed.secured.isHeld_of_holder (hstaffed.secured.holder_of_guard ht)) ?_ fun w hw => ?_
    · rw [apply_unlock ht]
      rfl
    · rw [apply_unlock ht]
      exact List.mem_append_right _ (Option.mem_toList.2 hw)
  | _ => exact absurd hm (by simp [returned])

/-! ## Coming to one's turn -/

/-- A routine that holds a request can go on, or stands in line for the lock of its task. -/
theorem mem_line (hr : (who, r) ∈ s.held) (hwho : who ∉ s.dispatcher.ready) :
    who ∈ s.locks.line r.chainTaskId := by
  obtain ⟨σ, holder, hstaffed⟩ := h.staffed
  have hrequest := (hstaffed.holding.mem_iff who r).1 hr
  rw [hstaffed.manned.ready.mem_iff] at hwho
  rw [hstaffed.secured.line]
  cases hσ : σ who with
  | queued r' serial =>
    rw [hσ] at hrequest
    obtain rfl : r' = r := Option.some.inj hrequest
    exact ⟨⟨r'.chainTaskId, serial⟩, congrArg Standing.stake hσ, rfl⟩
  | granted r' serial => exact absurd (congrArg Standing.isReady hσ) hwho
  | _ =>
    rw [hσ] at hrequest
    exact absurd hrequest (by simp [Standing.request?])

/-- Nobody falls back in a line, and each time the lock is given back everybody moves up. -/
theorem behind_apply (hr : (who, r) ∈ s.held) (hm : m ≠ .run who ∨ who ∉ s.dispatcher.ready) :
    (s.apply m).behind who r.chainTaskId ≤ s.behind who r.chainTaskId -
      if (s.returned m).map (·.id) = some r.chainTaskId then 1 else 0 := by
  unfold behind
  by_cases hready : who ∈ s.dispatcher.ready
  · rw [if_pos (h.ready_apply hready (hm.resolve_right fun hno => hno hready))]
    exact Nat.zero_le _
  · rw [if_neg hready]
    have hmem := h.mem_line hr hready
    by_cases hready' : who ∈ (s.apply m).dispatcher.ready
    · rw [if_pos hready']
      exact Nat.zero_le _
    · rw [if_neg hready']
      cases hreturned : s.returned m with
      | none =>
        obtain ⟨more, hline⟩ := h.line_of_kept hreturned r.chainTaskId
        rw [← hline, List.idxOf_append_of_mem hmem]
        exact Nat.le_refl _
      | some t =>
        obtain ⟨hlines, hnext⟩ := h.line_of_returned hreturned
        rw [hlines, Option.map_some]
        by_cases hid : r.chainTaskId = t.id
        · rw [if_pos hid, if_pos (congrArg some hid.symm)]
          -- the first in line can go on, so this is somebody after it
          cases hline : s.locks.line r.chainTaskId with
          | nil =>
            rw [hline] at hmem
            exact absurd hmem List.not_mem_nil
          | cons w rest =>
            have hne : w ≠ who := by
              rintro rfl
              exact hready' (hnext w (hid ▸ hline ▸ rfl))
            rw [List.tail_cons, List.idxOf_cons_ne _ hne]
            exact Nat.le_refl _
        · rw [if_neg hid, if_neg fun heq => hid (Option.some.inj heq).symm]
          exact Nat.le_refl _

/-- Who can go on with a request hands it over when it does. -/
theorem handed_of_ready (hr : (who, r) ∈ s.held) (hwho : who ∈ s.dispatcher.ready) :
    r ∈ (s.apply (.run who)).handed := by
  obtain ⟨σ, holder, hstaffed⟩ := h.staffed
  obtain ⟨place, hgoes⟩ := hstaffed.turn_goes hwho
  have hrequest := (hstaffed.holding.mem_iff who r).1 hr
  have hstill : s.heldThen who s.dispatcher.queue = s.held := s.heldThen_self who
  have hrun : s.apply (.run who) = s.ran who (s.turn who) := if_pos hwho
  rw [hrun]
  generalize s.turn who = x at hgoes
  generalize σ who = old at hgoes hrequest
  cases hgoes with
  | proceeded r' serial =>
    refine List.mem_append_right _ (List.mem_map.2 ⟨(who, r), List.mem_filter.2 ⟨?_, by simp⟩, rfl⟩)
    show (who, r) ∈ s.heldThen who s.dispatcher.queue
    rw [hstill]
    exact hr
  | _ => exact absurd hrequest (by simp [Standing.request?])

/-- Whatever happens, a request that is held is handed over, or stays held by somebody who moves up
whenever the lock is given back. -/
theorem behind_after (hr : (who, r) ∈ s.held) (moves : List Move) :
    r ∈ (s.after moves).handed ∨ (who, r) ∈ (s.after moves).held ∧
      (s.after moves).behind who r.chainTaskId ≤
        s.behind who r.chainTaskId - s.returns r.chainTaskId moves := by
  induction moves generalizing s with
  | nil => exact .inr ⟨hr, Nat.le_refl _⟩
  | cons m rest ih =>
    have hhanded : r ∈ (s.apply m).handed → r ∈ (s.after (m :: rest)).handed :=
      fun hmem => (h.apply m).handed_after_of_mem hmem rest
    by_cases hdue : m = .run who ∧ who ∈ s.dispatcher.ready
    · obtain ⟨rfl, hwho⟩ := hdue
      exact .inl (hhanded (h.handed_of_ready hr hwho))
    · rcases h.held_apply hr m with hheld | hmem
      · have hstep := h.behind_apply hr (m := m) (not_and_or.1 hdue)
        refine (ih (h.apply m) hheld).imp_right fun ⟨hstill, hbehind⟩ =>
          ⟨hstill, Nat.le_trans hbehind ?_⟩
        show _ ≤ s.behind who r.chainTaskId -
          ((if (s.returned m).map (·.id) = some r.chainTaskId then 1 else 0) +
            (s.apply m).returns r.chainTaskId rest)
        omega
      · exact .inl (hhanded hmem)

/-- Once the lock was given back often enough, a routine that goes on hands its request over. -/
theorem handed_after (hr : (who, r) ∈ s.held) {moves moves' : List Move}
    (hbehind : s.behind who r.chainTaskId ≤ s.returns r.chainTaskId moves)
    (hrun : .run who ∈ moves') : r ∈ (s.after (moves ++ moves')).handed := by
  obtain ⟨before, later, rfl⟩ := List.append_of_mem hrun
  rw [← List.append_assoc, after_append]
  have hafter := h.after (moves ++ before)
  rcases h.behind_after hr (moves ++ before) with hhanded | ⟨hheld, hstill⟩
  · exact hafter.handed_after_of_mem hhanded _
  · have hready : who ∈ (s.after (moves ++ before)).dispatcher.ready := by
      by_contra hno
      unfold behind at hstill
      rw [if_neg hno, returns_append] at hstill
      unfold behind at hbehind
      omega
    exact (hafter.apply _).handed_after_of_mem (hafter.handed_of_ready hheld hready) later

end Kept

end Shift

end ComputePool
