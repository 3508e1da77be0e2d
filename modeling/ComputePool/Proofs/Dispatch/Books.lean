import ComputePool.Proofs.Dispatch.Shift

/-!
# The notes of a shift agree with the dispatcher

`Shift.Staffed` says that the notes on who has which lock and who took which request agree with who
stands where. It is kept when somebody goes on (`Staffed.ran`), when a lock is taken or waited for
from outside (`Staffed.tryLock`, `Staffed.lock`), and when one is given back (`Staffed.unlock`,
`Staffed.finish`).
-/

namespace ComputePool

open Function (update update_self update_of_ne)

/-! ## Requests that are held -/

/-- The requests that are held are those that somebody took and did not hand over. -/
structure Holding (held : List (Nat × Request)) (σ : Nat → Standing) : Prop where
  single : (held.map (·.1)).Nodup
  mem_iff : ∀ who r, (who, r) ∈ held ↔ (σ who).request? = some r

namespace Holding

variable {held : List (Nat × Request)} {σ σ' : Nat → Standing} {who : Nat} {s : Standing}
  {r : Request}

theorem congr (h : Holding held σ) (hsame : ∀ who, (σ' who).request? = (σ who).request?) :
    Holding held σ' :=
  ⟨h.single, fun who r => (hsame who).symm ▸ h.mem_iff who r⟩

theorem stay (h : Holding held σ) (hs : s.request? = (σ who).request?) :
    Holding held (update σ who s) := by
  refine h.congr fun w => ?_
  rw [Function.update_apply]
  split
  · next hw => rw [hw, hs]
  · rfl

/-- Somebody who holds nothing takes a request. -/
theorem take (h : Holding held σ) (hnone : (σ who).request? = none) (hs : s.request? = some r) :
    Holding (held ++ [(who, r)]) (update σ who s) := by
  have hnot : ∀ r, (who, r) ∉ held := by
    intro r hmem
    rw [h.mem_iff, hnone] at hmem
    exact absurd hmem (by simp)
  refine ⟨?_, fun w r' => ?_⟩
  · rw [List.map_append]
    refine (List.perm_append_singleton who _).nodup_iff.2
      (List.nodup_cons.2 ⟨fun hwho => ?_, h.single⟩)
    obtain ⟨⟨w, r'⟩, hmem, rfl⟩ := List.mem_map.1 hwho
    exact hnot r' hmem
  · rw [List.mem_append, List.mem_singleton, Function.update_apply]
    by_cases hw : w = who
    · rw [if_pos hw, hs, hw]
      have hnot' := hnot r'
      constructor
      · intro hmem
        rcases hmem with hmem | hmem
        · exact absurd hmem hnot'
        · rw [(Prod.mk.inj hmem).2]
      · intro heq
        rw [Option.some.inj heq]
        exact .inr rfl
    · rw [if_neg hw, ← h.mem_iff]
      exact or_iff_left fun heq => hw (Prod.mk.inj heq).1

/-- Somebody hands over what it holds. -/
theorem hand (h : Holding held σ) (who : Nat) (hs : s.request? = none) :
    Holding (held.filter fun x => x.1 ≠ who) (update σ who s) := by
  refine ⟨h.single.sublist (List.filter_sublist.map _), fun w r => ?_⟩
  rw [List.mem_filter, h.mem_iff, Function.update_apply, decide_eq_true_iff]
  by_cases hw : w = who
  · rw [if_pos hw, hs]
    simp [hw]
  · rw [if_neg hw]
    exact and_iff_left hw

/-- What somebody holds is one request. -/
theorem filter_eq (h : Holding held σ) (hr : (who, r) ∈ held) :
    (held.filter fun x => x.1 = who) = [(who, r)] := by
  have hsingle := h.single
  clear h
  induction held with
  | nil => exact absurd hr List.not_mem_nil
  | cons x rest ih =>
    obtain ⟨hx, hrest⟩ := List.nodup_cons.1 hsingle
    rcases List.mem_cons.1 hr with rfl | hr
    · -- nobody comes twice
      have hnobody : (rest.filter fun x => x.1 = who) = [] :=
        List.filter_eq_nil_iff.2 fun y hy heq =>
          hx (List.mem_map.2 ⟨y, hy, of_decide_eq_true heq⟩)
      rw [List.filter_cons_of_pos (by simp), hnobody]
    · have hne : x.1 ≠ who := fun heq => hx (List.mem_map.2 ⟨_, hr, heq.symm⟩)
      rw [List.filter_cons_of_neg (by simpa using hne)]
      exact ih hr hrest

end Holding

/-- Whoever waits for a lock is a routine with a request, or somebody from outside. -/
theorem Standing.waits_cases {place : Standing} {t : Ticket} (h : place.stake = some (.waits t)) :
    (∃ r serial, place = .queued r serial ∧ t = ⟨r.chainTaskId, serial⟩) ∨ place = .visiting t := by
  cases place with
  | queued r serial => exact .inl ⟨r, serial, rfl, (Stake.waits.inj (Option.some.inj h)).symm⟩
  | visiting t' => exact .inr (congrArg _ (Stake.waits.inj (Option.some.inj h)))
  | _ => exact absurd h (by simp [Standing.stake])

namespace Shift

/-- The notes agree with who stands where, and with who has which lock. -/
structure Staffed (s : Shift) (σ : Nat → Standing) (holder : String → Option Holder) : Prop where
  manned : s.dispatcher.Manned σ
  secured : s.locks.Secured s.guards (Standing.stake ∘ σ) holder
  guests : Lists s.guests Standing.isVisiting σ
  holding : Holding s.held σ

variable {s s' : Shift} {σ σ' : Nat → Standing} {holder : String → Option Holder} {who : Nat}
  {t : Ticket} {id : String}

namespace Staffed

variable (h : s.Staffed σ holder)

include h

/-- Nobody took a request, or has to do with another lock than before. -/
theorem alike (halike : Alike σ σ') (hmanned : s'.dispatcher.Manned σ')
    (hsecured : s'.locks.Secured s'.guards (Standing.stake ∘ σ) holder)
    (hguests : s'.guests = s.guests) (hheld : s'.held = s.held) : s'.Staffed σ' holder where
  manned := hmanned
  secured := by
    have hstake : Standing.stake ∘ σ' = Standing.stake ∘ σ := funext halike.stake
    rw [hstake]
    exact hsecured
  guests := by
    rw [hguests]
    exact h.guests.congr halike.visiting
  holding := by
    rw [hheld]
    exact h.holding.congr halike.request

/-! ## Turns -/

/-- Somebody goes on. -/
theorem ran (hqueue : s.queue.entries.Nodup) (hwho : who ∈ s.dispatcher.ready) {place : Standing}
    {x : Option Ticket × Dispatcher}
    (hgoes : Dispatcher.Goes s.pool.now who
      { s.dispatcher with ready := s.dispatcher.ready.erase who } (σ who) x place) :
    ∃ holder', (s.ran who x).Staffed (update σ who place) holder' := by
  have hmanned := h.manned.goes s.pool.now hwho hgoes
  have hstill : s.heldThen who s.dispatcher.queue = s.held := s.heldThen_self who
  generalize hold : σ who = old at hgoes
  have hstake : (Standing.stake ∘ σ) who = old.stake := congrArg Standing.stake hold
  cases hgoes with
  | dismissed =>
    exact ⟨holder, h.alike (.update (hold ▸ rfl) (hold ▸ rfl) (hold ▸ rfl)) hmanned h.secured rfl
      hstill⟩
  | left hshutdown =>
    exact ⟨holder, h.alike (.update (hold ▸ rfl) (hold ▸ rfl) (hold ▸ rfl)) hmanned h.secured rfl
      hstill⟩
  | rested hshutdown hempty =>
    exact ⟨holder, h.alike (.update (hold ▸ rfl) (hold ▸ rfl) (hold ▸ rfl)) hmanned h.secured rfl
      hstill⟩
  | queued hshutdown hr hheld hticket hturns =>
    have htook := heldThen_remove who hqueue hr
    refine ⟨holder, hmanned, ?_, h.guests.stay (hold ▸ rfl), ?_⟩
    · rw [Function.comp_update]
      exact h.secured.lineUp hstake hheld hticket hturns
    · show Holding (s.heldThen who (s.queue.remove _)) _
      rw [htook]
      exact h.holding.take (hold ▸ rfl) rfl
  | @entered r serial locks hshutdown hr hfree hticket hturns =>
    have htook := heldThen_remove who hqueue hr
    have hsecured := h.secured.take hstake hfree hticket hturns
    refine ⟨update holder r.chainTaskId (some (.inside who)), hmanned, ?_,
      h.guests.stay (congrArg Standing.isVisiting hold).symm, ?_⟩
    · rw [Function.comp_update]
      exact hsecured
    · show Holding ((s.heldThen who (s.queue.remove r)).filter _) _
      rw [htook]
      -- the request is taken, and handed over at once
      have htaken := h.holding.take (s := .queued r serial) (congrArg Standing.request? hold) rfl
      have hhanded := htaken.hand who (s := .updating ⟨r.chainTaskId, serial⟩) rfl
      rw [Function.update_idem] at hhanded
      exact hhanded
  | proceeded r serial =>
    refine ⟨holder, hmanned, ?_, h.guests.stay (hold ▸ rfl), ?_⟩
    · have hsame : Standing.stake ∘ update σ who (.updating ⟨r.chainTaskId, serial⟩) =
          Standing.stake ∘ σ := by
        rw [Function.comp_update]
        exact Function.update_eq_self_iff.2 hstake.symm
      rw [hsame]
      exact h.secured
    · show Holding ((s.heldThen who s.dispatcher.queue).filter _) _
      rw [hstill]
      exact h.holding.hand who rfl

/-! ## Locks taken from outside -/

/-- Who is not there yet has nothing to do with locks. -/
theorem stake_next : (Standing.stake ∘ σ) s.dispatcher.nextRoutine = none :=
  congrArg Standing.stake (h.manned.fresh _ (Nat.le_refl _))

/-- A free lock is taken from outside. -/
theorem secured_taken {locks : Locks} (hfree : s.locks.isHeld t.id = false) (hticket : locks.Has t)
    (hturns : s.locks.Turns locks t.id true []) :
    ∃ holder', locks.Secured (s.guards ++ [t]) (Standing.stake ∘ σ) holder' := by
  -- as if somebody who is not there yet took it and handed it out
  have htaken := h.secured.take h.stake_next hfree hticket hturns
  have hout := htaken.handOut (update_self _ _ _)
  rw [Function.update_idem, Function.update_eq_self_iff.2 h.stake_next.symm] at hout
  exact ⟨_, hout⟩

/-- Who takes a lock from outside is a visitor that has it, or nothing changes. -/
theorem tryLock (id : String) : ∃ holder', (s.apply (.tryLock id)).Staffed σ holder' := by
  have hunfold : s.apply (.tryLock id) = { s with
      pool := s.pool.changeDispatcher fun d =>
        { d with locks := (s.locks.tryAcquire s.pool.now id).2 }
      guards := s.guards ++ (s.locks.tryAcquire s.pool.now id).1.toList } := rfl
  rw [hunfold]
  cases hheld : s.locks.isHeld id with
  | true =>
    obtain ⟨locks, heq, hturns⟩ := h.secured.sound.tryAcquire_of_held s.pool.now id hheld
    rw [heq]
    have hsecured : locks.Secured (s.guards ++ []) (Standing.stake ∘ σ) holder := by
      rw [List.append_nil]
      exact h.secured.same hturns
    exact ⟨holder, h.alike (.refl σ) (h.manned.frame rfl rfl rfl rfl rfl) hsecured rfl rfl⟩
  | false =>
    obtain ⟨t, locks, -, heq, rfl, hticket, hturns⟩ :=
      h.secured.sound.acquire_of_free s.pool.now id 0 hheld
    rw [heq]
    obtain ⟨holder', hsecured⟩ := h.secured_taken hheld hticket hturns
    exact ⟨holder', h.manned.frame rfl rfl rfl rfl rfl, hsecured, h.guests, h.holding⟩

/-- Who asks for a lock from outside is a visitor that has it or waits for it. -/
theorem lock (id : String) : ∃ σ' holder', (s.apply (.lock id)).Staffed σ' holder' := by
  have hunfold : s.apply (.lock id) =
      let x := s.locks.acquire s.pool.now id s.dispatcher.nextRoutine
      { s with
        pool := s.pool.changeDispatcher fun d =>
          { d with locks := x.2, nextRoutine := s.dispatcher.nextRoutine + 1 }
        guards := s.guards ++ if x.1.2 then [x.1.1] else []
        guests := s.guests ++ if x.1.2 then [] else [s.dispatcher.nextRoutine] } := rfl
  rw [hunfold]
  have hnew := h.manned.fresh _ (Nat.le_refl _)
  cases hheld : s.locks.isHeld id with
  | true =>
    obtain ⟨t, locks, heq, rfl, hticket, hturns⟩ :=
      h.secured.sound.acquire_of_held s.pool.now id s.dispatcher.nextRoutine hheld
    rw [heq]
    refine ⟨_, holder, (h.manned.visit t).frame rfl rfl rfl rfl rfl, ?_,
      h.guests.join (hnew ▸ rfl) rfl, h.holding.stay (hnew ▸ rfl)⟩
    rw [Function.comp_update]
    show locks.Secured (s.guards ++ []) _ _
    rw [List.append_nil]
    exact h.secured.lineUp h.stake_next hheld hticket hturns
  | false =>
    obtain ⟨t, locks, heq, -, rfl, hticket, hturns⟩ :=
      h.secured.sound.acquire_of_free s.pool.now id s.dispatcher.nextRoutine hheld
    rw [heq]
    obtain ⟨holder', hsecured⟩ := h.secured_taken hheld hticket hturns
    refine ⟨σ, holder', ⟨h.manned.activity, h.manned.few,
      fun who hwho => h.manned.fresh who (Nat.le_of_succ_le hwho), h.manned.ready,
      h.manned.resting⟩,
      hsecured, ?_, h.holding⟩
    show Lists (s.guests ++ []) _ _
    rw [List.append_nil]
    exact h.guests

/-! ## Locks that are given back -/

/-- A lock is given back from outside. -/
theorem unlock (ht : t ∈ s.guards) : ∃ σ' holder', (s.apply (.unlock t)).Staffed σ' holder' := by
  have hunlock : s.apply (.unlock t) = { s with
      pool := s.pool.changeDispatcher fun d =>
        { d with locks := (s.locks.release t).2 }.wake (s.locks.release t).1
      guards := s.guards.erase t ++ (welcome t (s.locks.release t).1 s.guests).1
      guests := (welcome t (s.locks.release t).1 s.guests).2 } := apply_unlock ht
  have hheld := h.secured.isHeld_of_holder (h.secured.holder_of_guard ht)
  obtain ⟨locks, hrelease, hturns⟩ := h.secured.sound.release (h.secured.guarded t ht) hheld
  rw [hunlock, hrelease]
  cases hline : s.locks.line t.id with
  | nil =>
    rw [hline] at hturns
    have hsecured := h.secured.giveBack ht hturns hline
    rw [← List.append_nil (s.guards.erase t)] at hsecured
    exact ⟨σ, _, h.manned.frame rfl rfl rfl (List.append_nil _) rfl, hsecured, h.guests, h.holding⟩
  | cons who rest =>
    rw [hline] at hturns
    obtain ⟨hwaits, hpassed⟩ := h.secured.passOn ht hline hturns
    have hcame : σ who ≠ .absent := by
      intro habsent
      have hnone : (Standing.stake ∘ σ) who = none := congrArg Standing.stake habsent
      exact absurd (hnone.symm.trans hwaits) (by simp)
    have hguest : who ∈ s.guests ↔ (σ who).isVisiting = true := h.guests.mem_iff who
    rw [List.head?_cons]
    rcases Standing.waits_cases hwaits with ⟨r, serial, hwho, rfl⟩ | hwho
    · have hroutine : who ∉ s.guests := by
        rw [hguest, hwho]
        simp [Standing.isVisiting]
      have hmanned := h.manned.wake (s := .granted r serial) (congrArg Standing.activity hwho).symm
        rfl hcame (congrArg Standing.isReady hwho) (congrArg Standing.isResting hwho).symm
      rw [welcome_of_routine hroutine]
      refine ⟨_, update holder r.chainTaskId (some (.inside who)),
        hmanned.frame rfl rfl rfl rfl rfl,
        ?_, h.guests.stay (hwho ▸ rfl), h.holding.stay (hwho ▸ rfl)⟩
      rw [Function.comp_update]
      show locks.Secured (s.guards.erase _ ++ []) _ _
      rw [List.append_nil]
      exact hpassed
    · have hmanned := h.manned.wake (s := .admitted) (congrArg Standing.activity hwho).symm
        rfl hcame (congrArg Standing.isReady hwho) (congrArg Standing.isResting hwho).symm
      have hout := hpassed.handOut (update_self _ _ _)
      rw [Function.update_idem, Function.update_idem] at hout
      rw [welcome_of_guest (hguest.2 (congrArg _ hwho))]
      refine ⟨_, update holder t.id (some .outside), hmanned.frame rfl rfl rfl rfl rfl, ?_,
        h.guests.leave rfl, h.holding.stay (hwho ▸ rfl)⟩
      rw [Function.comp_update]
      exact hout

/-- The place of a routine that updates a task. -/
theorem updating (hwho : s.dispatcher.routines.find? who = some (.updating t)) :
    σ who = .updating t := by
  rw [h.manned.activity] at hwho
  cases hσ : σ who with
  | updating t' =>
    rw [hσ] at hwho
    rw [Activity.updating.inj (Option.some.inj hwho)]
  | _ =>
    rw [hσ] at hwho
    exact absurd hwho (by simp [Standing.activity])

/-- A routine whose update is done gives the lock back. -/
theorem finish (hwho : s.dispatcher.routines.find? who = some (.updating t)) :
    ∃ σ' holder', (s.apply (.finish who)).Staffed σ' holder' := by
  have hplace := h.updating hwho
  have hstake : (Standing.stake ∘ σ) who = some (.has t) := congrArg Standing.stake hplace
  have hnot : t ∉ s.guards := by
    intro hmem
    have houtside := h.secured.holder_of_guard hmem
    rw [h.secured.holder_of_stake hstake] at houtside
    exact absurd houtside (by simp)
  -- as if the lock was held from outside, and given back from there
  have houtside : Staffed { s with
      pool := s.pool.changeDispatcher fun d =>
        { d.continueAs who .looking with ready := who :: d.ready }
      guards := s.guards ++ [t] } (update σ who .called) (update holder t.id (some .outside)) := by
    refine ⟨h.manned.finish hplace, ?_, h.guests.stay (hplace ▸ rfl), h.holding.stay (hplace ▸ rfl)⟩
    rw [Function.comp_update]
    exact h.secured.handOut hstake
  have hmem : t ∈ s.guards ++ [t] := List.mem_append_right _ (List.mem_singleton.2 rfl)
  have hunlock := houtside.unlock hmem
  have hback : (s.guards ++ [t]).erase t = s.guards := by
    rw [List.erase_append_right _ hnot, List.erase_cons_head, List.append_nil]
  have hfinish : s.apply (.finish who) = apply { s with
      pool := s.pool.changeDispatcher fun d =>
        { d.continueAs who .looking with ready := who :: d.ready }
      guards := s.guards ++ [t] } (.unlock t) := by
    rw [apply_finish hwho, apply_unlock hmem]
    dsimp only
    rw [hback]
    rfl
  rw [hfinish]
  exact hunlock

end Staffed

end Shift

end ComputePool
