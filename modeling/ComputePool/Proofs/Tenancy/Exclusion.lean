import ComputePool.Proofs.Tenancy.Returns

/-!
# Exclusion

What a sweep takes is free, has no queue and no reference that was kept, so those who refer to a
lock do not lose it (`Tenancy.Kept.prune`). With that every move keeps the views exact, and a move
that does not concern an id leaves its view as it was (`Tenancy.Kept.apply`). That there is one
guard at most for an id, and that every reference names the lock in the table, is read off the exact
views (`Tenancy.exclusion`).
-/

namespace ComputePool

open Locks

namespace Tenancy

variable {s : Tenancy}

namespace Kept

variable (h : s.Kept)

include h

/-! ## Sweeping -/

omit h in
/-- A lock survives a sweep if it was visited lately or is referred to. -/
theorem survives_iff (now : Instant) (ttl : Span) (id : String) (l : TaskLock) :
    survives now ttl l = false ↔
      (l.guards id = [] ∧ l.waiters id = [] ∧ l.kept id = []) ∧
        (ttl.toNanos : Int) ≤ now.nanosSince l.touched := by
  unfold survives TaskLock.isReferenced Instant.hasElapsed TaskLock.guards TaskLock.waiters
    TaskLock.kept
  simp [and_assoc]

/-- A sweep may drop the lock of an id, and changes nothing about who refers to it. -/
theorem view_prune (i : String) :
    (s.apply .prune).view i =
      { s.view i with lock := (s.view i).lock.filter (survives s.now s.locks.ttl) } := by
  have hfind : (s.locks.prune s.now).2.table.find? i =
      (s.locks.table.find? i).filter (survives s.now s.locks.ttl) :=
    Table.find?_filter _ i h.sound.distinct
  show View.mk ((s.locks.prune s.now).2.table.find? i) _ _ _ _ = _
  rw [hfind]
  rfl

/-- Nobody refers to a lock that is swept. -/
theorem prune : (s.apply .prune).Kept := by
  refine ⟨fun i => ?_, (h.sound.prune s.now "").sound, h.numbers, h.below, h.serials⟩
  rw [h.view_prune]
  cases hl : (s.view i).lock with
  | none =>
    show View.Exact i { s.view i with lock := none }
    rw [← hl]
    exact h.exact i
  | some l =>
    have hview := (h.exact i).eq_of hl
    cases hsurvives : survives s.now s.locks.ttl l with
    | true =>
      rw [Option.filter_some_pos hsurvives, ← hl]
      exact h.exact i
    | false =>
      obtain ⟨⟨hguards, hwaiters, hkept⟩, -⟩ := (survives_iff _ _ i l).1 hsurvives
      rw [Option.filter_some_neg hsurvives, hview]
      exact ⟨hguards, hwaiters, hkept, fun _ hk => absurd hk.symm (Option.some_ne_none _)⟩

/-! ## Moves -/

/-- A move leaves what concerns another id as it was, and everything stays in order. -/
theorem apply (m : Move) :
    (∀ i, ¬ m.Concerns i → (s.apply m).view i = s.view i) ∧ (s.apply m).Kept := by
  have hturned : ∀ {id : String} {s' : Tenancy}, (∃ l, s.Turned s' id l ∧ s'.Kept) →
      (∀ i, ¬ id = i → s'.view i = s.view i) ∧ s'.Kept := by
    rintro id s' ⟨l, hturned, hkept⟩
    refine ⟨fun i hi => ?_, hkept⟩
    rw [hturned i, if_neg hi]
  cases m with
  | get id => exact hturned (h.get id)
  | touch id => exact hturned (h.touch id)
  | tryLock id => exact hturned (h.tryLock id)
  | lock id => exact hturned (h.lock id)
  | drop t =>
    by_cases ht : t ∈ s.kept
    · exact hturned (h.drop ht)
    · have happly : s.apply (.drop t) = s := if_neg ht
      rw [happly]
      exact ⟨fun _ _ => rfl, h⟩
  | release t =>
    by_cases ht : t ∈ s.guards
    · exact hturned (h.release ht)
    · have happly : s.apply (.release t) = s := if_neg ht
      rw [happly]
      exact ⟨fun _ _ => rfl, h⟩
  | advance later => exact ⟨fun _ _ => rfl, h.exact, h.sound, h.numbers, h.below, h.serials⟩
  | prune => exact ⟨fun _ hno => absurd trivial hno, h.prune⟩

/-- Everything stays in order, whatever moves are made. -/
theorem after (moves : List Move) : (s.after moves).Kept := by
  induction moves generalizing s with
  | nil => exact h
  | cons m rest ih => exact ih (h.apply m).2

end Kept

/-- Every table in use is in order. -/
theorem Reachable.kept (h : s.Reachable) : s.Kept := by
  obtain ⟨now, ttl, moves, rfl⟩ := h
  exact (kept_opened now ttl).after moves

/-! ## Exclusion -/

/-- Nobody refers to the lock of the id, and the last visit is at least the time to live ago. -/
def Idle (s : Tenancy) (id : String) : Prop :=
  (∀ t ∈ s.references, t.id ≠ id) ∧
    ∃ v ∈ s.lastVisit? id, (s.locks.ttl.toNanos : Int) ≤ s.now.nanosSince v.2

instance (s : Tenancy) (id : String) : Decidable (s.Idle id) := inferInstanceAs (Decidable (_ ∧ _))

namespace Kept

variable (h : s.Kept)

include h

omit h in
/-- Nobody refers to an id if nobody holds its lock, waits for it or keeps a reference. -/
theorem unreferenced_iff (s : Tenancy) (id : String) :
    (∀ t ∈ s.references, t.id ≠ id) ↔
      (s.view id).guards = [] ∧ (s.view id).waiters = [] ∧ (s.view id).kept = [] := by
  unfold references view
  simp only [List.filter_eq_nil_iff, decide_eq_true_eq, List.mem_append, List.mem_map]
  grind

/-- A lock of the table is idle exactly if a sweep takes it. -/
theorem idle_iff {id : String} {l : TaskLock} (hl : s.locks.table.find? id = some l) :
    s.Idle id ↔ survives s.now s.locks.ttl l = false := by
  have hview := (h.exact id).eq_of hl
  have hvisited := (h.exact id).visited l hl
  have hlast : s.lastVisit? id = some (⟨id, l.serial⟩, l.touched) := hvisited
  unfold Idle
  rw [survives_iff, unreferenced_iff, hview, hlast]
  refine and_congr_right fun _ => ⟨?_, fun hold => ⟨_, rfl, hold⟩⟩
  rintro ⟨v, hv, hold⟩
  rw [← Option.some.inj hv] at hold
  exact hold

/-- Who holds a lock is told by whether it is held. -/
theorem view_guards (id : String) :
    (s.view id).guards = if s.locks.isHeld id then [s.locks.ticketOf s.now id] else [] := by
  rw [(h.lists id).1]
  unfold TaskLock.guards
  rw [lockOf_held]
  rfl

/-- The lock of an id is held exactly if there is a guard for it. -/
theorem isHeld_iff (id : String) : s.locks.isHeld id = true ↔ ∃ t ∈ s.guards, t.id = id := by
  have hguards := h.view_guards id
  have hmem : ∀ t, t ∈ (s.view id).guards ↔ t ∈ s.guards ∧ t.id = id := fun t => by
    unfold view
    rw [List.mem_filter, decide_eq_true_eq]
  constructor
  · intro hheld
    rw [if_pos hheld] at hguards
    exact ⟨_, (hmem _).1 (hguards ▸ List.mem_singleton_self _)⟩
  · rintro ⟨t, ht⟩
    by_contra hfree
    rw [if_neg hfree] at hguards
    exact absurd (hguards ▸ (hmem t).2 ht) List.not_mem_nil

/-- No lock is held twice. -/
theorem nodup_guards : (s.guards.map (·.id)).Nodup := by
  refine List.nodup_iff_count_le_one.2 fun id => ?_
  have hcount : (s.guards.map (·.id)).count id = (s.view id).guards.length := by
    unfold List.count
    rw [List.countP_map, List.countP_eq_length_filter]
    rfl
  rw [hcount, h.view_guards]
  split
  · exact Nat.le_refl 1
  · exact Nat.zero_le 1

/-- A reference is good for the lock as long as it is kept. -/
theorem has_of_mem {t : Ticket} (ht : t ∈ s.references) : s.locks.Has t := by
  rcases List.mem_append.1 ht with ht | ht
  · rcases List.mem_append.1 ht with ht | ht
    · obtain ⟨l, hl, hserial, -⟩ := h.lock_of_guard ht
      exact has_of_find? hl hserial
    · obtain ⟨w, hw, rfl⟩ := List.mem_map.1 ht
      obtain ⟨l, hl, hserial, -⟩ := h.lock_of_waiter hw
      exact has_of_find? hl hserial
  · obtain ⟨l, hl, hserial⟩ := h.lock_of_kept ht
    exact has_of_find? hl hserial

/-- Who waits for a lock waits for a guard of it. -/
theorem guard_of_waiter {w : Nat × Ticket} (hw : w ∈ s.waiters) : w.2 ∈ s.guards := by
  obtain ⟨l, hl, hserial, hqueued⟩ := h.lock_of_waiter hw
  have hheld : l.held = true := by
    by_contra hfree
    have hempty := h.sound.prompt l (Table.mem_values_of_find? hl) (Bool.eq_false_iff.2 hfree)
    rw [hempty] at hqueued
    exact absurd hqueued List.not_mem_nil
  have hguards : (s.view w.2.id).guards = [w.2] := by
    rw [(h.exact w.2.id).eq_of hl]
    show l.guards w.2.id = [w.2]
    unfold TaskLock.guards
    rw [if_pos hheld, hserial]
  have hmem : w.2 ∈ (s.view w.2.id).guards := hguards ▸ List.mem_singleton_self _
  exact List.mem_of_mem_filter hmem

/-- A lock that has to be made has a ticket that was never given. -/
theorem ticketOf_fresh {id : String} (hl : s.locks.table.find? id = none) :
    ∀ v ∈ s.visits, v.1 ≠ s.locks.ticketOf s.now id := by
  intro v hv heq
  have hlt := h.serials v hv
  have hserial : (s.locks.ticketOf s.now id).serial = s.locks.nextSerial := by
    unfold ticketOf lockOf
    rw [hl]
  rw [heq, hserial] at hlt
  exact Nat.lt_irrefl _ hlt

/-- A sweep tells how many locks were idle. -/
theorem prune_fst :
    (s.locks.prune s.now).1 = (s.locks.table.keys.filter fun id => s.Idle id).length := by
  have hidle : ∀ e ∈ s.locks.table.entries,
      decide (s.Idle e.1) = !survives s.now s.locks.ttl e.2 := by
    intro e he
    have hfind : s.locks.table.find? e.1 = some e.2 := Table.findIn_of_mem h.sound.distinct he
    rw [Bool.eq_iff_iff, decide_eq_true_eq, h.idle_iff hfind, Bool.not_eq_true']
  have hsplit := (List.filter_append_perm (fun e : String × TaskLock =>
    survives s.now s.locks.ttl e.2) s.locks.table.entries).length_eq
  have hkeys : (s.locks.table.keys.filter fun id => s.Idle id).length =
      (s.locks.table.entries.filter fun e => !survives s.now s.locks.ttl e.2).length := by
    show ((s.locks.table.entries.map (·.1)).filter fun id => s.Idle id).length = _
    rw [List.filter_map, List.length_map, ← List.filter_congr hidle]
    rfl
  rw [List.length_append] at hsplit
  show s.locks.table.entries.length -
    (s.locks.table.entries.filter fun e => survives s.now s.locks.ttl e.2).length = _
  omega

end Kept

/-- Locks exclude, and sweeping does not break it, whatever happened to the locks.

* There is one guard at most for an id. Every reference that was given out and not given back names
  the lock that is in the table; a lock that has to be made gets a ticket that was never given.
* A lock is taken exactly if there is no guard for its id. Nobody waits unless there is a guard.
* A move leaves the lock of every id that it does not concern, and who refers to it, as they were.
* A sweep takes exactly the locks that nobody refers to and that were last visited at least the time
  to live ago, and tells how many; every reference still names the lock in the table. -/
theorem exclusion (h : s.Reachable) :
    ((s.guards.map (·.id)).Nodup ∧ (∀ t ∈ s.references, s.locks.Has t) ∧
      ∀ id, s.locks.table.find? id = none → ∀ v ∈ s.visits, v.1 ≠ s.locks.ticketOf s.now id) ∧
    ((∀ id, (s.locks.tryAcquire s.now id).1 =
        if ∃ t ∈ s.guards, t.id = id then none else some (s.locks.ticketOf s.now id)) ∧
      (∀ id who, (s.locks.acquire s.now id who).1.2 = true ↔ ¬ ∃ t ∈ s.guards, t.id = id) ∧
      ∀ w ∈ s.waiters, w.2 ∈ s.guards) ∧
    (∀ m id, ¬ m.Concerns id → (s.apply m).view id = s.view id) ∧
    (∀ id, (s.apply .prune).locks.table.find? id =
        if s.Idle id then none else s.locks.table.find? id) ∧
      (s.locks.prune s.now).1 = (s.locks.table.keys.filter fun id => s.Idle id).length ∧
      ∀ t ∈ s.references, (s.apply .prune).locks.Has t := by
  have hkept := h.kept
  refine ⟨⟨hkept.nodup_guards, fun _ => hkept.has_of_mem, fun _ => hkept.ticketOf_fresh⟩,
    ⟨fun id => ?_, fun id who => ?_, fun _ => hkept.guard_of_waiter⟩,
    fun m id hm => (hkept.apply m).1 id hm, fun id => ?_, hkept.prune_fst,
    fun _ ht => hkept.prune.has_of_mem ht⟩
  · rcases hkept.sound.asked_tryAcquire s.now id with ⟨hheld, hnone, -⟩ | ⟨hfree, hsome, -⟩
    · rw [if_pos ((hkept.isHeld_iff id).1 hheld), hnone]
    · rw [if_neg fun hguard => absurd ((hkept.isHeld_iff id).2 hguard) (by simp [hfree]), hsome]
  · rw [← hkept.isHeld_iff]
    rcases hkept.sound.asked_acquire s.now id who with ⟨hheld, heq, -⟩ | ⟨hfree, heq, -⟩
    · simp [heq, hheld]
    · simp [heq, hfree]
  · have hview := congrArg View.lock (hkept.view_prune id)
    have hfind : (s.apply .prune).locks.table.find? id =
        (s.locks.table.find? id).filter (survives s.now s.locks.ttl) := hview
    rw [hfind]
    cases hl : s.locks.table.find? id with
    | none => exact (ite_self none).symm
    | some l =>
      cases hsurvives : survives s.now s.locks.ttl l with
      | true =>
        have hbusy : ¬ s.Idle id := by simp [hkept.idle_iff hl, hsurvives]
        rw [Option.filter_some_pos hsurvives, if_neg hbusy]
      | false =>
        rw [Option.filter_some_neg hsurvives, if_pos ((hkept.idle_iff hl).2 hsurvives)]

/-- One lock is held, and somebody waits for it; a reference to a second one is kept. A third lock
was visited too long ago, a fourth one lately. -/
def crowded : Tenancy :=
  (opened .epoch (.ofSeconds 10)).after [.lock "0x1", .lock "0x1", .get "0x2", .touch "0x3",
    .advance (Instant.epoch.plusMillis 5000), .touch "0x4",
    .advance (Instant.epoch.plusMillis 11000)]

/-- The held lock is not taken, and a sweep drops the lock that was visited too long ago and no
other. -/
theorem exclusion_crowded :
    crowded.Reachable ∧ crowded.references = [⟨"0x1", 0⟩, ⟨"0x1", 0⟩, ⟨"0x2", 1⟩] ∧
      (crowded.locks.tryAcquire crowded.now "0x1").1 = none ∧
      (crowded.locks.prune crowded.now).1 = 1 ∧
      (crowded.apply .prune).locks.table.keys = ["0x1", "0x2", "0x4"] ∧
      ((crowded.apply .prune).apply (.tryLock "0x3")).guards = [⟨"0x1", 0⟩, ⟨"0x3", 4⟩] ∧
      ∀ t ∈ crowded.references, (crowded.apply .prune).locks.Has t := by
  have hreach : crowded.Reachable := (reachable_opened .epoch (.ofSeconds 10)).after _
  obtain ⟨-, ⟨htry, -⟩, -, -, hcount, hhas⟩ := exclusion hreach
  refine ⟨hreach, by decide, ?_, ?_, by decide, by decide, hhas⟩
  · rw [htry]
    decide
  · rw [hcount]
    decide

end Tenancy

end ComputePool
