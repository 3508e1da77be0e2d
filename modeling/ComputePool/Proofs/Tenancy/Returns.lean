import ComputePool.Proofs.Tenancy.Basic

/-!
# References that are given back

Whoever gives a reference back had a lock that is still in the table. A reference that was merely
kept is taken off the count (`Tenancy.Kept.drop`). A lock that was held passes to the one who is
first in its queue, who is told apart from all others that wait by a number
(`Tenancy.Kept.release`).
-/

namespace ComputePool

open Locks

namespace Tenancy

variable {s : Tenancy}

namespace Kept

variable (h : s.Kept)

include h

/-! ## The lock that is referred to -/

/-- If anybody refers to the lock of an id, it is in the table. -/
theorem view_of_referenced {id : String}
    (href : (s.view id).guards ≠ [] ∨ (s.view id).waiters ≠ [] ∨ (s.view id).kept ≠ []) :
    ∃ l, s.locks.table.find? id = some l ∧ s.view id = .of id l := by
  have hexact := h.exact id
  cases hl : s.locks.table.find? id with
  | none =>
    have hlock : (s.view id).lock = none := hl
    rw [hexact.guards, hexact.waiters, hexact.kept, hlock] at href
    exact absurd href (by simp)
  | some l => exact ⟨l, rfl, hexact.eq_of hl⟩

/-- The lock that a guard holds. -/
theorem lock_of_guard {t : Ticket} (ht : t ∈ s.guards) :
    ∃ l, s.locks.table.find? t.id = some l ∧ l.serial = t.serial ∧ l.held = true := by
  have hmem : t ∈ (s.view t.id).guards := List.mem_filter.2 ⟨ht, decide_eq_true rfl⟩
  obtain ⟨l, hl, hview⟩ := h.view_of_referenced (.inl (List.ne_nil_of_mem hmem))
  rw [hview] at hmem
  have hmem : t ∈ l.guards t.id := hmem
  refine ⟨l, hl, (congrArg (·.serial) (id_of_mem_guards hmem)).symm, ?_⟩
  unfold TaskLock.guards at hmem
  by_contra hfree
  rw [if_neg hfree] at hmem
  exact absurd hmem List.not_mem_nil

/-- The lock that somebody waits for. -/
theorem lock_of_waiter {w : Nat × Ticket} (hw : w ∈ s.waiters) :
    ∃ l, s.locks.table.find? w.2.id = some l ∧ l.serial = w.2.serial ∧ w.1 ∈ l.queue := by
  have hmem : w ∈ (s.view w.2.id).waiters := List.mem_filter.2 ⟨hw, decide_eq_true rfl⟩
  obtain ⟨l, hl, hview⟩ := h.view_of_referenced (.inr (.inl (List.ne_nil_of_mem hmem)))
  rw [hview] at hmem
  have hmem : w ∈ l.waiters w.2.id := hmem
  refine ⟨l, hl, (congrArg (·.serial) (id_of_mem_waiters hmem)).symm, ?_⟩
  obtain ⟨n, hn, heq⟩ := List.mem_map.1 hmem
  rw [← heq]
  exact hn

/-- The lock that a reference was kept of. -/
theorem lock_of_kept {t : Ticket} (ht : t ∈ s.kept) :
    ∃ l, s.locks.table.find? t.id = some l ∧ l.serial = t.serial := by
  have hmem : t ∈ (s.view t.id).kept := List.mem_filter.2 ⟨ht, decide_eq_true rfl⟩
  obtain ⟨l, hl, hview⟩ := h.view_of_referenced (.inr (.inr (List.ne_nil_of_mem hmem)))
  rw [hview] at hmem
  exact ⟨l, hl, (congrArg (·.serial) (id_of_mem_kept (l := l) hmem)).symm⟩

/-! ## Giving back -/

omit h in
theorem apply_drop {t : Ticket} (ht : t ∈ s.kept) :
    s.apply (.drop t) = { s with locks := s.locks.drop t, kept := s.kept.erase t } := if_pos ht

omit h in
theorem view_drop {t : Ticket} (ht : t ∈ s.kept) (i : String) :
    (s.apply (.drop t)).view i = ⟨(s.locks.drop t).table.find? i, (s.view i).guards,
      (s.view i).waiters, (s.view i).kept.erase t, (s.view i).visited⟩ := by
  rw [apply_drop ht]
  unfold view
  dsimp only
  rw [List.erase_filter]
  rfl

/-- A reference that is dropped is taken off the count of its lock. -/
theorem turned_drop {t : Ticket} {l : TaskLock} (ht : t ∈ s.kept)
    (hl : s.locks.table.find? t.id = some l) (hserial : l.serial = t.serial) :
    s.Turned (s.apply (.drop t)) t.id { l with handles := l.handles - 1 } := by
  intro i
  rw [view_drop ht]
  unfold Locks.drop
  rw [find?_modify (has_of_find? hl hserial)]
  split
  · next hi =>
    obtain rfl := hi
    have herase : (l.kept t.id).erase t =
        TaskLock.kept t.id { l with handles := l.handles - 1 } := by
      unfold TaskLock.kept
      rw [hserial, List.erase_replicate, if_pos (beq_self_eq_true t)]
    rw [(h.exact t.id).eq_of hl, hl]
    unfold View.of
    dsimp only
    rw [herase]
    rfl
  · next hi =>
    have hother : t ∉ (s.view i).kept :=
      fun hmem => hi (of_decide_eq_true (List.mem_filter.1 hmem).2)
    rw [List.erase_of_not_mem hother]
    rfl

/-- Dropping a reference that was kept keeps everything in order. -/
theorem drop {t : Ticket} (ht : t ∈ s.kept) :
    ∃ l, s.Turned (s.apply (.drop t)) t.id l ∧ (s.apply (.drop t)).Kept := by
  obtain ⟨l, hl, hserial⟩ := h.lock_of_kept ht
  have hturned := h.turned_drop ht hl hserial
  refine ⟨_, hturned, hturned.exact h.exact, ?_, ?_, ?_, ?_⟩
  · rw [apply_drop ht]
    exact h.sound.modify fun k hk => h.sound.prompt k (Table.mem_values_of_find? hk)
  · rw [apply_drop ht]
    exact h.numbers
  · rw [apply_drop ht]
    exact h.below
  · rw [apply_drop ht]
    show ∀ v ∈ s.visits, v.1.serial < (s.locks.drop t).nextSerial
    unfold Locks.drop
    rw [nextSerial_modify]
    exact h.serials

/-- Who stands in the queue of a lock waits for it, and nobody else has the same number. -/
theorem waiter_eq {t : Ticket} {l : TaskLock} (hl : s.locks.table.find? t.id = some l)
    (hserial : l.serial = t.serial) {n : Nat} (hn : n ∈ l.queue) :
    (n, t) ∈ s.waiters ∧ ∀ w ∈ s.waiters, w.1 = n → w = (n, t) := by
  have hmem : (n, t) ∈ (s.view t.id).waiters := by
    rw [(h.exact t.id).eq_of hl]
    refine List.mem_map.2 ⟨n, hn, ?_⟩
    rw [hserial]
  have hwaits : (n, t) ∈ s.waiters := List.mem_of_mem_filter hmem
  exact ⟨hwaits, fun w hw hnumber => List.inj_on_of_nodup_map h.numbers hw hwaits hnumber⟩

/-- The lock passes to the one who is first in its queue. -/
theorem passed_guards {t : Ticket} {l : TaskLock} (hl : s.locks.table.find? t.id = some l)
    (hserial : l.serial = t.serial) (hheld : l.held = true) :
    (s.waiters.filter fun w => some w.1 = l.queue.head?).map (·.2) = l.passed.guards t.id := by
  unfold TaskLock.passed
  cases hqueue : l.queue with
  | nil =>
    rw [filter_of_forall_not fun w _ => Option.some_ne_none w.1]
    rfl
  | cons n rest =>
    obtain ⟨hwaits, honly⟩ := h.waiter_eq hl hserial (hqueue ▸ List.mem_cons_self : n ∈ l.queue)
    have hperm : (s.waiters.filter fun w => some w.1 = (n :: rest).head?).Perm [(n, t)] := by
      refine (List.perm_ext_iff_of_nodup (h.numbers.of_map.filter _) (List.nodup_singleton _)).2
        fun w => ?_
      rw [List.mem_filter, List.mem_singleton]
      refine ⟨fun ⟨hw, hnumber⟩ => honly w hw (Option.some.inj (of_decide_eq_true hnumber)), ?_⟩
      rintro rfl
      exact ⟨hwaits, decide_eq_true rfl⟩
    rw [List.perm_singleton.1 hperm]
    unfold TaskLock.guards
    rw [if_pos hheld, hserial]
    rfl

/-- Nobody else leaves a queue when the lock passes. -/
theorem passed_waiters {t : Ticket} {l : TaskLock} (hl : s.locks.table.find? t.id = some l)
    (hserial : l.serial = t.serial) (i : String) :
    ((s.view i).waiters.filter fun w => ¬ some w.1 = l.queue.head?) =
      if t.id = i then l.passed.waiters i else (s.view i).waiters := by
  split
  · next hi =>
    obtain rfl := hi
    have hnodup : l.queue.Nodup := by
      have hsub : ((s.view t.id).waiters.map (·.1)).Nodup :=
        h.numbers.sublist (List.filter_sublist.map _)
      rw [(h.exact t.id).eq_of hl] at hsub
      have hmap : (l.waiters t.id).map (·.1) = l.queue := by
        unfold TaskLock.waiters
        rw [List.map_map]
        exact List.map_id _
      rw [← hmap]
      exact hsub
    rw [(h.exact t.id).eq_of hl]
    show ((l.waiters t.id).filter fun w => ¬ some w.1 = l.queue.head?) = l.passed.waiters t.id
    unfold TaskLock.passed TaskLock.waiters
    cases hqueue : l.queue with
    | nil => rfl
    | cons n rest =>
      rw [hqueue] at hnodup
      have hrest : ∀ w ∈ rest.map fun m => (m, (⟨t.id, l.serial⟩ : Ticket)),
          ¬ some w.1 = (n :: rest).head? := by
        intro w hw heq
        obtain ⟨m, hm, rfl⟩ := List.mem_map.1 hw
        have hsame : m = n := Option.some.inj heq
        rw [hsame] at hm
        exact (List.nodup_cons.1 hnodup).1 hm
      rw [List.map_cons, List.filter_cons_of_neg (by simp), filter_of_forall hrest]
  · next hi =>
    refine filter_of_forall fun w hw heq => hi ?_
    obtain ⟨hwaits, hid⟩ := List.mem_filter.1 hw
    have hhead : w.1 ∈ l.queue := List.mem_of_mem_head? heq.symm
    obtain ⟨-, honly⟩ := h.waiter_eq hl hserial hhead
    rw [honly w hwaits rfl] at hid
    exact of_decide_eq_true hid

theorem apply_release {t : Ticket} {l : TaskLock} (ht : t ∈ s.guards)
    (hl : s.locks.table.find? t.id = some l) (hserial : l.serial = t.serial)
    (hheld : l.held = true) :
    s.apply (.release t) = { s with
      locks := (s.locks.release t).2
      guards := s.guards.erase t ++ l.passed.guards t.id
      waiters := s.waiters.filter fun w => ¬ some w.1 = l.queue.head? } := by
  obtain ⟨hwho, -⟩ := release_of_find? hl hserial
  rw [← h.passed_guards hl hserial hheld, ← hwho]
  exact if_pos ht

theorem view_release {t : Ticket} {l : TaskLock} (ht : t ∈ s.guards)
    (hl : s.locks.table.find? t.id = some l) (hserial : l.serial = t.serial)
    (hheld : l.held = true) (i : String) :
    (s.apply (.release t)).view i = ⟨(s.locks.release t).2.table.find? i,
      (s.view i).guards.erase t ++ (if t.id = i then l.passed.guards t.id else []),
      (s.view i).waiters.filter fun w => ¬ some w.1 = l.queue.head?,
      (s.view i).kept, (s.view i).visited⟩ := by
  rw [h.apply_release ht hl hserial hheld]
  unfold view
  dsimp only
  rw [filter_append_id (fun t : Ticket => t.id)
    (fun k hk => congrArg (·.id) (id_of_mem_guards hk)), List.erase_filter, List.filter_comm]
  rfl

/-- A lock that is given back passes to the first who waits for it. -/
theorem turned_release {t : Ticket} {l : TaskLock} (ht : t ∈ s.guards)
    (hl : s.locks.table.find? t.id = some l) (hserial : l.serial = t.serial)
    (hheld : l.held = true) : s.Turned (s.apply (.release t)) t.id l.passed := by
  obtain ⟨-, hfind, -⟩ := release_of_find? hl hserial
  intro i
  rw [h.view_release ht hl hserial hheld, hfind, h.passed_waiters hl hserial]
  split
  · next hi =>
    obtain rfl := hi
    have herase : (l.guards t.id).erase t = [] := by
      unfold TaskLock.guards
      rw [if_pos hheld, hserial]
      exact List.erase_cons_head t []
    obtain ⟨hserial', htouched, hhandles⟩ := l.passed_same
    rw [(h.exact t.id).eq_of hl]
    unfold View.of
    dsimp only
    rw [herase, hserial', htouched, List.nil_append]
    unfold TaskLock.kept
    rw [hhandles, hserial']
  · next hi =>
    have hother : t ∉ (s.view i).guards :=
      fun hmem => hi (of_decide_eq_true (List.mem_filter.1 hmem).2)
    rw [List.erase_of_not_mem hother, List.append_nil]
    rfl

/-- Giving a lock back keeps everything in order. -/
theorem release {t : Ticket} (ht : t ∈ s.guards) :
    ∃ l, s.Turned (s.apply (.release t)) t.id l ∧ (s.apply (.release t)).Kept := by
  obtain ⟨l, hl, hserial, hheld⟩ := h.lock_of_guard ht
  obtain ⟨-, -, hnext⟩ := release_of_find? hl hserial
  have happly := h.apply_release ht hl hserial hheld
  have hturned := h.turned_release ht hl hserial hheld
  have hisHeld : s.locks.isHeld t.id = true := by
    unfold isHeld
    rw [hl]
    exact hheld
  refine ⟨_, hturned, hturned.exact h.exact, ?_, ?_, ?_, ?_⟩
  · rw [happly]
    obtain ⟨ls', heq, hturns⟩ := h.sound.release (has_of_find? hl hserial) hisHeld
    rw [heq]
    exact hturns.sound
  · rw [happly]
    exact h.numbers.sublist (List.filter_sublist.map _)
  · rw [happly]
    exact fun w hw => h.below w (List.mem_of_mem_filter hw)
  · rw [happly]
    show ∀ v ∈ s.visits, v.1.serial < (s.locks.release t).2.nextSerial
    rw [hnext]
    exact h.serials

end Kept

end Tenancy

end ComputePool
