import ComputePool.Proofs.Dispatch.Custody
import ComputePool.Proofs.Queue.Order

/-!
# Who stands where

A routine is in one place at a time: it is to look for a request, waits by the bell, waits in line
for the lock of its task, has got that lock, or updates the task. `Standing` tells the place, and
also that of somebody from outside who waits for a lock. The dispatcher keeps this in several lists,
and `Dispatcher.Manned` says that they agree: everybody is in the lists that go with its place and
in no others, and there are no more routines than there should be.

`Dispatcher.Goes` lists what can come of the turn of somebody who can go on. What else moves
somebody from one place to another has a law of its own (`Manned.offer`, `Manned.topUp`,
`Manned.finish`, `Manned.wake`, `Manned.visit`, `Manned.shutdown`).
-/

namespace ComputePool

open Function (update update_self update_of_ne)

namespace Table

variable {κ α : Type} [DecidableEq κ]

theorem find?_isSome_iff {k : κ} {t : Table κ α} : (t.find? k).isSome ↔ k ∈ t.keys := by
  obtain ⟨es⟩ := t
  show (findIn k es).isSome ↔ k ∈ es.map (·.1)
  induction es with
  | nil => simp [findIn]
  | cons e rest ih =>
    unfold findIn
    rw [List.map_cons, List.mem_cons]
    split
    · next he => exact iff_of_true rfl (.inl he.symm)
    · next he => exact ih.trans ⟨.inr, fun h => h.resolve_left fun heq => he heq.symm⟩

/-- A value that is replaced takes no more room. -/
theorem size_insert (k : κ) (a : α) (t : Table κ α) :
    (t.insert k a).size = if (t.find? k).isSome then t.size else t.size + 1 := by
  have hkeys : (t.insert k a).size = (t.insert k a).keys.length := (List.length_map _).symm
  have hin : (t.insert k a).keys = if k ∈ t.keys then t.keys else t.keys ++ [k] :=
    keys_insertIn k a t.entries
  have hsize : t.keys.length = t.size := List.length_map _
  rw [hkeys, hin]
  by_cases hk : k ∈ t.keys
  · rw [if_pos hk, if_pos (find?_isSome_iff.2 hk), hsize]
  · rw [if_neg hk, if_neg fun hsome => hk (find?_isSome_iff.1 hsome), List.length_append, hsize]
    rfl

end Table

/-! ## Places -/

/-- The place of a routine, or of somebody from outside. -/
inductive Standing where
  /-- It is not there, or has nothing to wait for. -/
  | absent
  /-- A routine that is to look for a request. -/
  | called
  /-- A routine that waits by the bell. -/
  | resting
  /-- A routine that took a request and waits in line for the lock of its task. -/
  | queued (r : Request) (serial : Nat)
  /-- A routine that took a request and got the lock of its task. -/
  | granted (r : Request) (serial : Nat)
  | updating (t : Ticket)
  /-- Somebody from outside who waits in line for a lock. -/
  | visiting (t : Ticket)
  /-- Somebody from outside who got a lock and is to be told so. -/
  | admitted

namespace Standing

def activity : Standing → Option Activity
  | called | resting => some .looking
  | queued r serial | granted r serial => some (.waiting ⟨r.chainTaskId, serial⟩)
  | updating t => some (.updating t)
  | absent | visiting _ | admitted => none

def isReady : Standing → Bool
  | called | granted .. | admitted => true
  | _ => false

def isResting : Standing → Bool
  | resting => true
  | _ => false

def isVisiting : Standing → Bool
  | visiting _ => true
  | _ => false

/-- What it has to do with a lock. Somebody from outside who got a lock is not named any more. -/
def stake : Standing → Option Stake
  | queued r serial => some (.waits ⟨r.chainTaskId, serial⟩)
  | granted r serial => some (.has ⟨r.chainTaskId, serial⟩)
  | updating t => some (.has t)
  | visiting t => some (.waits t)
  | _ => none

/-- The request that was taken and not yet handed over. -/
def request? : Standing → Option Request
  | queued r _ | granted r _ => some r
  | _ => none

end Standing

/-- The list is made up of those whose place passes the test. -/
structure Lists (l : List Nat) (p : Standing → Bool) (σ : Nat → Standing) : Prop where
  single : l.Nodup
  mem_iff : ∀ who, who ∈ l ↔ p (σ who) = true

namespace Lists

variable {l l' : List Nat} {p : Standing → Bool} {σ : Nat → Standing} {who : Nat} {s : Standing}

theorem perm (h : Lists l p σ) (hl : l.Perm l') : Lists l' p σ :=
  ⟨hl.nodup_iff.1 h.single, fun who => hl.mem_iff.symm.trans (h.mem_iff who)⟩

theorem congr {σ' : Nat → Standing} (h : Lists l p σ) (hp : ∀ who, p (σ' who) = p (σ who)) :
    Lists l p σ' :=
  ⟨h.single, fun who => (hp who).symm ▸ h.mem_iff who⟩

/-- Who goes from one place to another, both in the list or both not. -/
theorem stay (h : Lists l p σ) (hp : p s = p (σ who)) : Lists l p (update σ who s) := by
  refine h.congr fun w => ?_
  rw [Function.update_apply]
  split
  · next hw => rw [hw, hp]
  · rfl

/-- Who comes stands at the end of the list. -/
theorem join (h : Lists l p σ) (hout : p (σ who) = false) (hin : p s = true) :
    Lists (l ++ [who]) p (update σ who s) := by
  have hnot : who ∉ l := fun hmem => absurd (((h.mem_iff who).1 hmem).symm.trans hout) (by simp)
  refine ⟨(List.perm_append_singleton who l).nodup_iff.2 (List.nodup_cons.2 ⟨hnot, h.single⟩),
    fun w => ?_⟩
  rw [List.mem_append, List.mem_singleton, Function.update_apply]
  split
  · next hw => exact iff_of_true (.inr hw) hin
  · next hw => exact ⟨fun hmem => (h.mem_iff w).1 (hmem.resolve_right hw), fun hp =>
      .inl ((h.mem_iff w).2 hp)⟩

/-- Who goes is taken out of the list. -/
theorem leave (h : Lists l p σ) (hout : p s = false) : Lists (l.erase who) p (update σ who s) := by
  refine ⟨h.single.erase who, fun w => ?_⟩
  rw [h.single.mem_erase_iff, Function.update_apply]
  split
  · next hw => exact iff_of_false (fun hmem => hmem.1 hw) (by simp [hout])
  · next hw => exact (and_iff_right hw).trans (h.mem_iff w)

theorem tail (h : Lists (who :: l) p σ) (hout : p s = false) : Lists l p (update σ who s) := by
  have hleave : Lists ((who :: l).erase who) p (update σ who s) := h.leave hout
  rw [List.erase_cons_head] at hleave
  exact hleave

end Lists

/-- Nobody took a request, handed one over, or has to do with another lock than before. -/
structure Alike (σ σ' : Nat → Standing) : Prop where
  stake : ∀ who, (σ' who).stake = (σ who).stake
  request : ∀ who, (σ' who).request? = (σ who).request?
  visiting : ∀ who, (σ' who).isVisiting = (σ who).isVisiting

namespace Alike

variable {σ σ' σ'' : Nat → Standing}

theorem refl (σ : Nat → Standing) : Alike σ σ := ⟨fun _ => rfl, fun _ => rfl, fun _ => rfl⟩

theorem trans (h : Alike σ σ') (h' : Alike σ' σ'') : Alike σ σ'' :=
  ⟨fun who => (h'.stake who).trans (h.stake who), fun who => (h'.request who).trans (h.request who),
    fun who => (h'.visiting who).trans (h.visiting who)⟩

theorem update {who : Nat} {s : Standing} (hstake : s.stake = (σ who).stake)
    (hrequest : s.request? = (σ who).request?) (hvisiting : s.isVisiting = (σ who).isVisiting) :
    Alike σ (update σ who s) := by
  refine ⟨fun w => ?_, fun w => ?_, fun w => ?_⟩ <;>
  · rw [Function.update_apply]
    split
    · next hw => rw [hw]; assumption
    · rfl

end Alike

namespace Dispatcher

/-- The lists of the dispatcher agree with who stands where. -/
structure Manned (d : Dispatcher) (σ : Nat → Standing) : Prop where
  activity : ∀ who, d.routines.find? who = (σ who).activity
  few : d.active ≤ d.poolSize
  fresh : ∀ who, d.nextRoutine ≤ who → σ who = .absent
  ready : Lists d.ready Standing.isReady σ
  resting : Lists d.bell.waiting Standing.isResting σ

theorem manned_empty (poolSize : Nat) (ttl : Span) :
    (empty poolSize ttl).Manned fun _ => .absent where
  activity _ := rfl
  few := Nat.zero_le _
  fresh _ _ := rfl
  ready := ⟨List.nodup_nil, by simp [empty, Standing.isReady]⟩
  resting := ⟨List.nodup_nil, by simp [empty, Bell.silent, Standing.isResting]⟩

/-- What can come of the turn of somebody at a place: the answer of the dispatcher, with the
dispatcher afterwards, and the place to which it goes. -/
inductive Goes (now : Instant) (who : Nat) (d : Dispatcher) :
    Standing → Option Ticket × Dispatcher → Standing → Prop where
  /-- Somebody from outside is told of its lock. -/
  | dismissed : Goes now who d .admitted (none, d) .absent
  /-- After a shutdown a routine ends. -/
  | left (hshutdown : d.isShutdown = true) :
      Goes now who d .called (none, { d with routines := d.routines.erase who }) .absent
  /-- There is no request. -/
  | rested (hshutdown : d.isShutdown = false) (hempty : d.queue.entries = []) :
      Goes now who d .called (none, { d with bell := d.bell.listen who }) .resting
  /-- A request is taken, and the lock of its task is held. -/
  | queued {r : Request} {serial : Nat} {locks : Locks} (hshutdown : d.isShutdown = false)
      (hr : r ∈ d.queue.entries) (hheld : d.locks.isHeld r.chainTaskId = true)
      (hticket : locks.Has ⟨r.chainTaskId, serial⟩)
      (hturns : d.locks.Turns locks r.chainTaskId true (d.locks.line r.chainTaskId ++ [who])) :
      Goes now who d .called
        (none, { d with
          queue := d.queue.remove r
          locks
          bell := d.bell.quiet
          routines := d.routines.insert who (.waiting ⟨r.chainTaskId, serial⟩) })
        (.queued r serial)
  /-- A request is taken, with the lock of its task. -/
  | entered {r : Request} {serial : Nat} {locks : Locks} (hshutdown : d.isShutdown = false)
      (hr : r ∈ d.queue.entries) (hfree : d.locks.isHeld r.chainTaskId = false)
      (hticket : locks.Has ⟨r.chainTaskId, serial⟩)
      (hturns : d.locks.Turns locks r.chainTaskId true []) :
      Goes now who d .called
        (some ⟨r.chainTaskId, serial⟩, { d with
          queue := d.queue.remove r
          locks
          bell := d.bell.quiet
          routines := d.routines.insert who (.updating ⟨r.chainTaskId, serial⟩) })
        (.updating ⟨r.chainTaskId, serial⟩)
  /-- A routine that has the lock of its task begins the update. -/
  | proceeded (r : Request) (serial : Nat) :
      Goes now who d (.granted r serial)
        (some ⟨r.chainTaskId, serial⟩, d.continueAs who (.updating ⟨r.chainTaskId, serial⟩))
        (.updating ⟨r.chainTaskId, serial⟩)

variable {d : Dispatcher} {σ : Nat → Standing} {who : Nat} (now : Instant)

/-- Whoever can go on does so in one of these ways. -/
theorem resume_goes {s : Standing} (hsound : d.locks.Sound)
    (hactivity : d.routines.find? who = s.activity) (hready : s.isReady = true) :
    ∃ s', Goes now who d s (d.resume now who) s' := by
  unfold resume
  rw [hactivity]
  cases s with
  | admitted => exact ⟨_, .dismissed⟩
  | granted r serial => exact ⟨_, .proceeded r serial⟩
  | called =>
    dsimp only [Standing.activity]
    unfold look
    by_cases hshutdown : d.isShutdown = true
    · rw [if_pos hshutdown]
      exact ⟨_, .left hshutdown⟩
    · rw [if_neg hshutdown, UpdateQueue.pop_eq]
      have hshutdown : d.isShutdown = false := Bool.eq_false_iff.2 hshutdown
      cases hfirst : Request.first? d.queue.entries with
      | none => exact ⟨_, .rested hshutdown (Request.first?_eq_none.1 hfirst)⟩
      | some r =>
        have hr := Request.first?_mem hfirst
        dsimp only
        by_cases hheld : d.locks.isHeld r.chainTaskId = true
        · obtain ⟨⟨id, serial⟩, locks, hacquire, rfl, hticket, hturns⟩ :=
            hsound.acquire_of_held now _ who hheld
          rw [hacquire]
          exact ⟨_, .queued hshutdown hr hheld hticket hturns⟩
        · have hfree := Bool.eq_false_iff.2 hheld
          obtain ⟨⟨id, serial⟩, locks, hacquire, -, rfl, hticket, hturns⟩ :=
            hsound.acquire_of_free now _ who hfree
          rw [hacquire]
          exact ⟨_, .entered hshutdown hr hfree hticket hturns⟩
  | _ => exact absurd hready (by simp [Standing.isReady])

/-- The activities when somebody goes from one place to another of the same activity. -/
theorem activity_update (h : d.Manned σ) {s : Standing} (hs : s.activity = (σ who).activity)
    (w : Nat) : d.routines.find? w = (update σ who s w).activity := by
  rw [h.activity, Function.update_apply]
  split
  · next hw => rw [hw, hs]
  · rfl

/-- The activities after one of them was set. -/
theorem activity_insert (h : d.Manned σ) {a : Activity} {s : Standing} (hs : s.activity = some a)
    (w : Nat) : (d.routines.insert who a).find? w = (update σ who s w).activity := by
  rw [Table.find?_insert, Function.update_apply, h.activity w]
  by_cases hw : who = w
  · rw [if_pos hw, if_pos hw.symm, hs]
  · rw [if_neg hw, if_neg (Ne.symm hw)]

namespace Manned

variable (h : d.Manned σ)

include h

/-- Nobody is there who did not come. -/
theorem fresh_update {s : Standing} (hwho : σ who ≠ .absent) :
    ∀ w, d.nextRoutine ≤ w → update σ who s w = .absent := by
  intro w hw
  have hne : w ≠ who := by
    rintro rfl
    exact hwho (h.fresh w hw)
  rw [update_of_ne hne]
  exact h.fresh w hw

/-- Who comes gets the next number. -/
theorem fresh_next {s : Standing} :
    ∀ w, d.nextRoutine + 1 ≤ w → update σ d.nextRoutine s w = .absent := by
  intro w hw
  rw [update_of_ne (Nat.ne_of_gt hw)]
  exact h.fresh w (Nat.le_of_succ_le hw)

/-- A routine that changes its activity is none more. -/
theorem few_insert {a : Activity} (hwho : (σ who).activity.isSome) :
    (d.routines.insert who a).size ≤ d.poolSize := by
  rw [Table.size_insert, if_pos (by rw [h.activity]; exact hwho)]
  exact h.few

/-- A turn puts somebody in another place. -/
theorem goes {s : Standing} {x : Option Ticket × Dispatcher} (hwho : who ∈ d.ready)
    (hgoes : Goes now who { d with ready := d.ready.erase who } (σ who) x s) :
    x.2.Manned (update σ who s) := by
  have hready : (σ who).isReady = true := (h.ready.mem_iff who).1 hwho
  have hcame : σ who ≠ .absent := by
    intro habsent
    rw [habsent] at hready
    exact absurd hready (by simp [Standing.isReady])
  have hfresh := fun s => h.fresh_update (s := s) hcame
  generalize hold : σ who = old at hgoes
  cases hgoes with
  | dismissed =>
    exact ⟨activity_update h (hold ▸ rfl), h.few, hfresh _, h.ready.leave rfl,
      h.resting.stay (hold ▸ rfl)⟩
  | left hshutdown =>
    refine ⟨fun w => ?_, ?_, hfresh _, h.ready.leave rfl, h.resting.stay (hold ▸ rfl)⟩
    · show (d.routines.erase who).find? w = _
      rw [Table.find?_erase, Function.update_apply, h.activity]
      by_cases hw : who = w
      · rw [if_pos hw, if_pos hw.symm]
        rfl
      · rw [if_neg hw, if_neg (Ne.symm hw)]
    · exact Nat.le_trans (List.length_filter_le _ _) h.few
  | rested hshutdown hempty =>
    exact ⟨activity_update h (hold ▸ rfl), h.few, hfresh _, h.ready.leave rfl,
      h.resting.join (hold ▸ rfl) rfl⟩
  | queued hshutdown hr hheld hticket hturns =>
    exact ⟨activity_insert h rfl, h.few_insert (hold ▸ rfl), hfresh _, h.ready.leave rfl,
      h.resting.stay (hold ▸ rfl)⟩
  | entered hshutdown hr hfree hticket hturns =>
    exact ⟨activity_insert h rfl, h.few_insert (hold ▸ rfl), hfresh _, h.ready.leave rfl,
      h.resting.stay (hold ▸ rfl)⟩
  | proceeded r serial =>
    exact ⟨activity_insert h rfl, h.few_insert (hold ▸ rfl), hfresh _, h.ready.leave rfl,
      h.resting.stay (hold ▸ rfl)⟩

/-- Nothing else of a dispatcher tells who stands where. -/
theorem frame {d' : Dispatcher} (hroutines : d'.routines = d.routines)
    (hpoolSize : d'.poolSize = d.poolSize) (hnext : d'.nextRoutine = d.nextRoutine)
    (hready : d'.ready = d.ready) (hbell : d'.bell.waiting = d.bell.waiting) : d'.Manned σ := by
  refine ⟨?_, ?_, ?_, ?_, ?_⟩
  · rw [hroutines]
    exact h.activity
  · unfold active
    rw [hroutines, hpoolSize]
    exact h.few
  · rw [hnext]
    exact h.fresh
  · rw [hready]
    exact h.ready
  · rw [hbell]
    exact h.resting

/-! ### The bell -/

/-- Who has waited longest by the bell is called. -/
theorem call {rest : List Nat} (hwaiting : d.bell.waiting = who :: rest) :
    ({ d with bell := { d.bell with waiting := rest } }.wake (some who)).Manned
        (update σ who .called) ∧ σ who = .resting := by
  have hresting := h.resting
  rw [hwaiting] at hresting
  have hwho : σ who = .resting := by
    have hrests := (hresting.mem_iff who).1 List.mem_cons_self
    cases hσ : σ who with
    | resting => rfl
    | _ =>
      rw [hσ] at hrests
      exact absurd hrests (by simp [Standing.isResting])
  exact ⟨⟨activity_update h (hwho ▸ rfl), h.few, h.fresh_update (by simp [hwho]),
    h.ready.join (hwho ▸ rfl) rfl, hresting.tail rfl⟩, hwho⟩

/-- The first who wait by the bell are called. -/
theorem callAll {l rest : List Nat} (hwaiting : d.bell.waiting = l ++ rest) :
    ∃ σ', { d with bell := { d.bell with waiting := rest }, ready := d.ready ++ l }.Manned σ' ∧
      Alike σ σ' := by
  induction l generalizing d σ with
  | nil =>
    have hready : d.ready ++ [] = d.ready := List.append_nil _
    exact ⟨σ, h.frame rfl rfl rfl hready hwaiting.symm, .refl σ⟩
  | cons who more ih =>
    obtain ⟨hcalled, hwho⟩ := h.call hwaiting
    obtain ⟨σ', hmanned, halike⟩ := ih hcalled rfl
    have hready : d.ready ++ who :: more = d.ready ++ [who] ++ more := by simp
    refine ⟨σ', hmanned.frame rfl rfl rfl hready rfl, .trans (.update ?_ ?_ ?_) halike⟩ <;>
    · rw [hwho]
      rfl

theorem offer (t : Task) : ∃ σ', (d.offer now t).2.Manned σ' ∧ Alike σ σ' := by
  unfold Dispatcher.offer
  rcases d.queue.offer now t with ⟨_ | _, q⟩
  · exact ⟨σ, h.frame rfl rfl rfl rfl rfl, .refl σ⟩
  · unfold Bell.ring
    dsimp only
    cases hwaiting : d.bell.waiting with
    | nil => exact ⟨σ, h.frame rfl rfl rfl (List.append_nil _) hwaiting.symm, .refl σ⟩
    | cons who rest =>
      obtain ⟨σ', hmanned, halike⟩ := h.callAll (l := [who]) hwaiting
      exact ⟨σ', hmanned.frame rfl rfl rfl rfl rfl, halike⟩

/-- All who wait by the bell are called to end. -/
theorem shutdown : ∃ σ', d.shutdown.Manned σ' ∧ Alike σ σ' := by
  obtain ⟨σ', hmanned, halike⟩ := h.callAll (List.append_nil _).symm
  exact ⟨σ', hmanned.frame rfl rfl rfl rfl rfl, halike⟩

/-! ### Who comes -/

theorem start (hroom : d.active < d.poolSize) :
    d.start.Manned (update σ d.nextRoutine .called) ∧ d.start.active = d.active + 1 ∧
      Alike σ (update σ d.nextRoutine .called) := by
  have hnew : σ d.nextRoutine = .absent := h.fresh _ (Nat.le_refl _)
  have hactive : d.start.active = d.active + 1 := by
    have hnone : ¬ (d.routines.find? d.nextRoutine).isSome := by
      rw [h.activity, hnew]
      simp [Standing.activity]
    show (d.routines.insert d.nextRoutine .looking).size = _
    rw [Table.size_insert, if_neg hnone]
    rfl
  exact ⟨⟨activity_insert h rfl, hactive ▸ hroom, h.fresh_next, h.ready.join (hnew ▸ rfl) rfl,
    h.resting.stay (hnew ▸ rfl)⟩, hactive, .update (hnew ▸ rfl) (hnew ▸ rfl) (hnew ▸ rfl)⟩

/-- As many routines are started as are missing. -/
theorem topUp : ∃ σ', d.topUp.Manned σ' ∧ Alike σ σ' ∧
    (d.hasConsumer = true → d.isShutdown = false → d.topUp.active = d.poolSize) := by
  -- by induction on the routines that are started
  have hstarts : ∀ n ≤ d.poolSize - d.active, ∃ σ', (Nat.repeat Dispatcher.start n d).Manned σ' ∧
      Alike σ σ' ∧ (Nat.repeat Dispatcher.start n d).active = d.active + n ∧
      (Nat.repeat Dispatcher.start n d).poolSize = d.poolSize := by
    intro n
    induction n with
    | zero => exact fun _ => ⟨σ, h, .refl σ, rfl, rfl⟩
    | succ n ih =>
      intro hn
      obtain ⟨σ', hmanned, halike, hactive, hpoolSize⟩ := ih (Nat.le_of_succ_le hn)
      have hroom : (Nat.repeat Dispatcher.start n d).active <
          (Nat.repeat Dispatcher.start n d).poolSize := by omega
      obtain ⟨hstarted, hmore, hsame⟩ := hmanned.start hroom
      exact ⟨_, hstarted, halike.trans hsame, by rw [Nat.repeat, hmore, hactive]; rfl, hpoolSize⟩
  unfold Dispatcher.topUp
  by_cases hserving : d.hasConsumer = true ∧ d.isShutdown = false
  · rw [if_pos (by simp [hserving])]
    obtain ⟨σ', hmanned, halike, hactive, -⟩ := hstarts _ (Nat.le_refl _)
    refine ⟨σ', hmanned, halike, fun _ _ => ?_⟩
    have hfew := h.few
    omega
  · rw [if_neg (by simpa using hserving)]
    exact ⟨σ, h, .refl σ, fun hconsumer hrunning => absurd ⟨hconsumer, hrunning⟩ hserving⟩

/-- Somebody from outside joins a line. -/
theorem visit (t : Ticket) :
    { d with nextRoutine := d.nextRoutine + 1 }.Manned (update σ d.nextRoutine (.visiting t)) := by
  have hnew : σ d.nextRoutine = .absent := h.fresh _ (Nat.le_refl _)
  exact ⟨activity_update h (hnew ▸ rfl), h.few, h.fresh_next, h.ready.stay (hnew ▸ rfl),
    h.resting.stay (hnew ▸ rfl)⟩

/-! ### Locks that are given back -/

/-- Whoever waits in line gets the lock, and can go on. -/
theorem wake {s : Standing} (hactivity : s.activity = (σ who).activity)
    (hready : s.isReady = true) (hcame : σ who ≠ .absent) (hwaits : (σ who).isReady = false)
    (hresting : s.isResting = (σ who).isResting) : (d.wake (some who)).Manned (update σ who s) :=
  ⟨activity_update h hactivity, h.few, h.fresh_update hcame, h.ready.join hwaits hready,
    h.resting.stay hresting⟩

/-- A routine whose update is done looks for a request before any other. -/
theorem finish {t : Ticket} (hwho : σ who = .updating t) :
    { d.continueAs who .looking with ready := who :: d.ready }.Manned (update σ who .called) := by
  have hready : Lists (who :: d.ready) Standing.isReady (update σ who .called) :=
    (h.ready.join (hwho ▸ rfl) rfl).perm (List.perm_append_singleton who d.ready)
  exact ⟨activity_insert h rfl, h.few_insert (hwho ▸ rfl), h.fresh_update (by simp [hwho]), hready,
    h.resting.stay (hwho ▸ rfl)⟩

end Manned

end Dispatcher

end ComputePool
