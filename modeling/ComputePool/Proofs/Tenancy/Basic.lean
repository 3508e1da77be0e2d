import ComputePool.Proofs.Dispatch.Lines

/-!
# Who refers to a lock

A tenancy is a table of locks in use. It notes down every reference that was given out and not given
back (who holds a lock, who waits for one, who merely kept a reference) and every visit of the
table. Each of these is a ticket, which names one lock: the lock that is made for an id after a
sweep has another ticket than the one that was swept.

The lock of an id is at all times what those who refer to it have made of it (`View.Exact`): it is
held if there is a guard, its queue are those who wait, it counts the references that were kept, and
it knows the last visit. Asking for a lock changes the view of its id, which stays exact, and no
other (`Tenancy.Kept.asked`).
-/

namespace ComputePool

open Locks

namespace Locks

variable {ls : Locks} (now : Instant) (id : String)

/-- The ticket of whoever asks for the lock of an id. -/
def ticketOf (ls : Locks) : Ticket := ⟨id, (ls.lockOf now id).1.serial⟩

/-- The lock of the id was asked for, and is `l` now. -/
structure Asked (ls ls' : Locks) (l : TaskLock) : Prop where
  find : ∀ i, ls'.table.find? i = if id = i then some l else ls.table.find? i
  serial : l.serial = (ls.lockOf now id).1.serial
  touched : l.touched = now
  next : ls'.nextSerial = if (ls.lockOf now id).2 then ls.nextSerial + 1 else ls.nextSerial
  sound : ls'.Sound

/-- A lock that is asked for counts as touched now. -/
theorem touched_lockOf (ls : Locks) : (ls.lockOf now id).1.touched = now := by
  unfold lockOf
  cases ls.table.find? id with
  | none => rfl
  | some l => rfl

/-- Serials are given to new locks alone. -/
theorem nextSerial_modify (t : Ticket) (f : TaskLock → TaskLock) (ls : Locks) :
    (ls.modify t f).nextSerial = ls.nextSerial := by
  unfold modify
  split
  · split
    · rfl
    · rfl
  · rfl

namespace Sound

variable (h : ls.Sound)

include h

/-- A lock that is found or made and then changed, without its serial or the time of the visit, was
asked for. -/
theorem asked_access {f : TaskLock → TaskLock} (hserial : ∀ l, (f l).serial = l.serial)
    (htouched : ∀ l, (f l).touched = l.touched) (hf : (f (ls.lockOf now id).1).IsPrompt) :
    ls.Asked now id (ls.access now id f).2 (f (ls.lockOf now id).1) :=
  ⟨find?_access now id ls f, hserial _, (htouched _).trans (touched_lockOf now id ls), rfl,
    (h.access now id hserial hf).sound⟩

/-- Who keeps a reference is counted by the lock. -/
theorem asked_keep :
    ls.Asked now id (ls.keep now id).2
      { (ls.lockOf now id).1 with handles := (ls.lockOf now id).1.handles + 1 } :=
  h.asked_access now id (f := fun l => { l with handles := l.handles + 1 }) (fun _ => rfl)
    (fun _ => rfl) (h.prompt.lockOf now id)

/-- A reference that is kept and given up at once leaves only the visit. -/
theorem asked_touch : ls.Asked now id (ls.touch now id) (ls.lockOf now id).1 := by
  have hkeep := h.asked_keep now id
  have hticket : (ls.keep now id).2.Has (ls.keep now id).1 := has_access_self now id ls fun _ => rfl
  refine ⟨fun i => ?_, rfl, touched_lockOf now id ls, (nextSerial_modify _ _ _).trans hkeep.next,
    (h.touch now id).sound⟩
  show ((ls.keep now id).2.modify (ls.keep now id).1 _).table.find? i = _
  rw [find?_modify hticket, hkeep.find]
  have hid : (ls.keep now id).1.id = id := rfl
  rw [hid]
  split
  · rfl
  · rfl

/-- A lock is taken if it is free; if it is held, it was only visited. -/
theorem asked_tryAcquire :
    (ls.isHeld id = true ∧ (ls.tryAcquire now id).1 = none ∧
      ls.Asked now id (ls.tryAcquire now id).2 (ls.lockOf now id).1) ∨
    (ls.isHeld id = false ∧ (ls.tryAcquire now id).1 = some (ls.ticketOf now id) ∧
      ls.Asked now id (ls.tryAcquire now id).2 { (ls.lockOf now id).1 with held := true }) := by
  cases hheld : ls.isHeld id with
  | true =>
    refine .inl ⟨rfl, ?_⟩
    unfold Locks.tryAcquire
    rw [if_pos hheld]
    exact ⟨rfl, h.asked_touch now id⟩
  | false =>
    refine .inr ⟨rfl, ?_⟩
    unfold Locks.tryAcquire
    rw [if_neg (by simp [hheld])]
    exact ⟨rfl, h.asked_access now id (f := fun l => { l with held := true }) (fun _ => rfl)
      (fun _ => rfl) (.of_held rfl)⟩

/-- A lock is taken if it is free; if it is held, `who` stands in line for it. -/
theorem asked_acquire (who : Nat) :
    (ls.isHeld id = true ∧ (ls.acquire now id who).1 = (ls.ticketOf now id, false) ∧
      ls.Asked now id (ls.acquire now id who).2
        { (ls.lockOf now id).1 with queue := (ls.lockOf now id).1.queue ++ [who] }) ∨
    (ls.isHeld id = false ∧ (ls.acquire now id who).1 = (ls.ticketOf now id, true) ∧
      ls.Asked now id (ls.acquire now id who).2 { (ls.lockOf now id).1 with held := true }) := by
  cases hheld : ls.isHeld id with
  | true =>
    refine .inl ⟨rfl, ?_⟩
    unfold Locks.acquire
    rw [if_pos hheld]
    exact ⟨rfl, h.asked_access now id (f := fun l => { l with queue := l.queue ++ [who] })
      (fun _ => rfl) (fun _ => rfl) (.of_held ((lockOf_held now id ls).trans hheld))⟩
  | false =>
    refine .inr ⟨rfl, ?_⟩
    unfold Locks.acquire
    rw [if_neg (by simp [hheld])]
    exact ⟨rfl, h.asked_access now id (f := fun l => { l with held := true }) (fun _ => rfl)
      (fun _ => rfl) (.of_held rfl)⟩

end Sound

end Locks

/-- The lock as it is left by who gives it back. -/
def TaskLock.passed (l : TaskLock) : TaskLock :=
  match l.queue with
  | [] => { l with held := false }
  | _ :: rest => { l with queue := rest }

/-- Passing a lock on changes neither its serial, nor the time of the last visit, nor the references
that are kept. -/
theorem TaskLock.passed_same (l : TaskLock) :
    l.passed.serial = l.serial ∧ l.passed.touched = l.touched ∧ l.passed.handles = l.handles := by
  unfold passed
  split
  · exact ⟨rfl, rfl, rfl⟩
  · exact ⟨rfl, rfl, rfl⟩

namespace Locks

variable {ls : Locks} {t : Ticket} {l : TaskLock}

/-- A ticket is good for the lock of its serial. -/
theorem has_of_find? (hl : ls.table.find? t.id = some l) (hserial : l.serial = t.serial) :
    ls.Has t := by
  unfold Has
  rw [hl, ← hserial]
  rfl

/-- The lock that a ticket names passes to the first in its queue. -/
theorem release_of_find? (hl : ls.table.find? t.id = some l) (hserial : l.serial = t.serial) :
    (ls.release t).1 = l.queue.head? ∧
      (∀ i, (ls.release t).2.table.find? i =
        if t.id = i then some l.passed else ls.table.find? i) ∧
      (ls.release t).2.nextSerial = ls.nextSerial := by
  have hhas := has_of_find? hl hserial
  have hmodify : ∀ f : TaskLock → TaskLock, f l = l.passed → ∀ i,
      (ls.modify t f).table.find? i = if t.id = i then some l.passed else ls.table.find? i := by
    intro f hf i
    rw [find?_modify hhas]
    split
    · next hi =>
      rw [← hi, hl, ← hf]
      rfl
    · rfl
  unfold release
  rw [hl, Option.filter_some_pos (by simpa using hserial)]
  dsimp only
  cases hqueue : l.queue with
  | nil =>
    refine ⟨rfl, hmodify _ ?_, nextSerial_modify _ _ _⟩
    unfold TaskLock.passed
    rw [hqueue]
  | cons who rest =>
    refine ⟨rfl, hmodify _ ?_, nextSerial_modify _ _ _⟩
    unfold TaskLock.passed
    rw [hqueue]

end Locks

/-! ## What concerns one id -/

/-- Those who hold the lock of the id. -/
def TaskLock.guards (id : String) (l : TaskLock) : List Ticket :=
  if l.held then [⟨id, l.serial⟩] else []

/-- Those who wait for the lock of the id. -/
def TaskLock.waiters (id : String) (l : TaskLock) : List (Nat × Ticket) :=
  l.queue.map (·, ⟨id, l.serial⟩)

/-- The references to the lock of the id that were kept. -/
def TaskLock.kept (id : String) (l : TaskLock) : List Ticket :=
  List.replicate l.handles ⟨id, l.serial⟩

/-- The lock of an id, who refers to it, and who visited it last. -/
structure View where
  lock : Option TaskLock
  guards : List Ticket
  waiters : List (Nat × Ticket)
  kept : List Ticket
  visited : Option (Ticket × Instant)

namespace View

/-- What concerns the id of a lock that is in the table. -/
def of (id : String) (l : TaskLock) : View :=
  ⟨some l, l.guards id, l.waiters id, l.kept id, some (⟨id, l.serial⟩, l.touched)⟩

/-- The lock is what those who refer to it have made of it; nobody refers to a lock that is not in
the table. -/
structure Exact (id : String) (v : View) : Prop where
  guards : v.guards = v.lock.elim [] (TaskLock.guards id)
  waiters : v.waiters = v.lock.elim [] (TaskLock.waiters id)
  kept : v.kept = v.lock.elim [] (TaskLock.kept id)
  visited : ∀ l, v.lock = some l → v.visited = some (⟨id, l.serial⟩, l.touched)

variable {id : String} {v : View} {l : TaskLock}

/-- The view that a lock itself gives is exact. -/
theorem exact_of (id : String) (l : TaskLock) : (of id l).Exact id := by
  refine ⟨rfl, rfl, rfl, fun k hk => ?_⟩
  obtain rfl := Option.some.inj hk
  rfl

/-- An exact view of a lock in the table is the one that the lock gives. -/
theorem Exact.eq_of (h : v.Exact id) (hl : v.lock = some l) : v = of id l := by
  have hguards := h.guards
  have hwaiters := h.waiters
  have hkept := h.kept
  have hvisited := h.visited l hl
  rw [hl] at hguards hwaiters hkept
  obtain ⟨lock, guards, waiters, kept, visited⟩ := v
  exact View.mk.injEq .. |>.mpr ⟨hl, hguards, hwaiters, hkept, hvisited⟩

end View

/-- A table of locks in use. -/
structure Tenancy where
  now : Instant
  locks : Locks
  /-- Who holds a lock. -/
  guards : List Ticket
  /-- Who waits for a lock, under a number of their own. -/
  waiters : List (Nat × Ticket)
  /-- The references that were kept. -/
  kept : List Ticket
  /-- The next number for one who waits. -/
  arrivals : Nat
  /-- The tickets that were given, and when; the last one first. -/
  visits : List (Ticket × Instant)

namespace Tenancy

/-- What may happen. -/
inductive Move where
  /-- A reference to the lock of an id is asked for and kept. -/
  | get (id : String)
  /-- A reference is asked for and dropped at once. -/
  | touch (id : String)
  /-- A reference that was kept is dropped. -/
  | drop (t : Ticket)
  | tryLock (id : String)
  | lock (id : String)
  /-- A lock that is held is given back. -/
  | release (t : Ticket)
  /-- The clock moves on to a later instant. -/
  | advance (later : Instant)
  | prune

/-- The move is about the id, or about all ids. -/
def Move.Concerns (id : String) : Move → Prop
  | .get i | .touch i | .tryLock i | .lock i => i = id
  | .drop t | .release t => t.id = id
  | .advance _ => False
  | .prune => True

/-- A new table. -/
def opened (now : Instant) (ttl : Span) : Tenancy := ⟨now, .empty ttl, [], [], [], 0, []⟩

/-- What who asks for a lock comes away with. -/
structure Gain where
  guards : List Ticket := []
  waiters : List (Nat × Ticket) := []
  kept : List Ticket := []

/-- The lock of an id was asked for; what became of the locks, and what was gained by it. -/
def asked (id : String) (locks : Locks) (g : Gain) (s : Tenancy) : Tenancy :=
  { s with
    locks
    guards := s.guards ++ g.guards
    waiters := s.waiters ++ g.waiters
    kept := s.kept ++ g.kept
    arrivals := s.arrivals + g.waiters.length
    visits := (s.locks.ticketOf s.now id, s.now) :: s.visits }

/-- The tenancy after a move. Nobody gives back what they do not have. -/
def apply (s : Tenancy) : Move → Tenancy
  | .get id =>
    let (t, locks) := s.locks.keep s.now id
    s.asked id locks { kept := [t] }
  | .touch id => s.asked id (s.locks.touch s.now id) {}
  | .drop t =>
    if t ∈ s.kept then { s with locks := s.locks.drop t, kept := s.kept.erase t } else s
  | .tryLock id =>
    let (t, locks) := s.locks.tryAcquire s.now id
    s.asked id locks { guards := t.toList }
  | .lock id =>
    let ((t, got), locks) := s.locks.acquire s.now id s.arrivals
    s.asked id locks (if got then { guards := [t] } else { waiters := [(s.arrivals, t)] })
  | .release t =>
    if t ∈ s.guards then
      -- the lock passes to the one with the number that is told
      let (who, locks) := s.locks.release t
      { s with
        locks
        guards := s.guards.erase t ++ (s.waiters.filter fun w => some w.1 = who).map (·.2)
        waiters := s.waiters.filter fun w => ¬ some w.1 = who }
    else s
  | .advance later => { s with now := if s.now ≤ later then later else s.now }
  | .prune => { s with locks := (s.locks.prune s.now).2 }

/-- The tenancy after moves, one after the other. -/
def after (moves : List Move) (s : Tenancy) : Tenancy := moves.foldl apply s

/-- The tenancy began with a new table. -/
def Reachable (s : Tenancy) : Prop := ∃ now ttl moves, (opened now ttl).after moves = s

/-- Everything that refers to a lock. -/
def references (s : Tenancy) : List Ticket := s.guards ++ s.waiters.map (·.2) ++ s.kept

/-- The last visit of the lock of an id. -/
def lastVisit? (id : String) (s : Tenancy) : Option (Ticket × Instant) :=
  s.visits.find? fun v => v.1.id = id

/-- What concerns an id. -/
def view (id : String) (s : Tenancy) : View where
  lock := s.locks.table.find? id
  guards := s.guards.filter fun t => t.id = id
  waiters := s.waiters.filter fun w => w.2.id = id
  kept := s.kept.filter fun t => t.id = id
  visited := s.lastVisit? id

/-- What holds of a tenancy at all times. -/
structure Kept (s : Tenancy) : Prop where
  exact : ∀ id, (s.view id).Exact id
  sound : s.locks.Sound
  numbers : (s.waiters.map (·.1)).Nodup
  below : ∀ w ∈ s.waiters, w.1 < s.arrivals
  serials : ∀ v ∈ s.visits, v.1.serial < s.locks.nextSerial

variable {s : Tenancy}

theorem reachable_opened (now : Instant) (ttl : Span) : (opened now ttl).Reachable :=
  ⟨now, ttl, [], rfl⟩

theorem Reachable.after (h : s.Reachable) (moves : List Move) : (s.after moves).Reachable := by
  obtain ⟨now, ttl, moves₀, rfl⟩ := h
  exact ⟨now, ttl, moves₀ ++ moves, List.foldl_append⟩

theorem kept_opened (now : Instant) (ttl : Span) : (opened now ttl).Kept where
  exact _ := ⟨rfl, rfl, rfl, fun _ hl => absurd hl.symm (Option.some_ne_none _)⟩
  sound := sound_empty ttl
  numbers := List.nodup_nil
  below _ hw := absurd hw List.not_mem_nil
  serials _ hv := absurd hv List.not_mem_nil

/-! ## Asking for a lock -/

/-- What was gained makes the difference between the two locks. -/
structure Gain.Between (g : Gain) (id : String) (l l' : TaskLock) : Prop where
  guards : l'.guards id = l.guards id ++ g.guards
  waiters : l'.waiters id = l.waiters id ++ g.waiters
  kept : l'.kept id = l.kept id ++ g.kept

/-- The lock of the id is `l` now, which sees who refers to it; no other view changed. -/
def Turned (s s' : Tenancy) (id : String) (l : TaskLock) : Prop :=
  ∀ i, s'.view i = if id = i then .of i l else s.view i

/-- A move that concerns one id leaves every view exact if it leaves that one exact. -/
theorem Turned.exact {s' : Tenancy} {id : String} {l : TaskLock} (ht : s.Turned s' id l)
    (h : ∀ i, (s.view i).Exact i) (i : String) : (s'.view i).Exact i := by
  rw [ht i]
  split
  · exact View.exact_of i l
  · exact h i

theorem filter_of_forall {α : Type} {p : α → Prop} [DecidablePred p] {l : List α}
    (h : ∀ a ∈ l, p a) : (l.filter fun a => p a) = l :=
  List.filter_eq_self.2 fun a ha => decide_eq_true (h a ha)

theorem filter_of_forall_not {α : Type} {p : α → Prop} [DecidablePred p] {l : List α}
    (h : ∀ a ∈ l, ¬ p a) : (l.filter fun a => p a) = [] :=
  List.filter_eq_nil_iff.2 fun a ha htrue => h a ha (of_decide_eq_true htrue)

theorem id_of_mem_guards {id : String} {l : TaskLock} {t : Ticket} (h : t ∈ l.guards id) :
    t = ⟨id, l.serial⟩ := by
  unfold TaskLock.guards at h
  split at h
  · exact List.mem_singleton.1 h
  · exact absurd h List.not_mem_nil

theorem id_of_mem_waiters {id : String} {l : TaskLock} {w : Nat × Ticket} (h : w ∈ l.waiters id) :
    w.2 = ⟨id, l.serial⟩ := by
  obtain ⟨_, -, rfl⟩ := List.mem_map.1 h
  rfl

theorem id_of_mem_kept {id : String} {l : TaskLock} {t : Ticket} (h : t ∈ l.kept id) :
    t = ⟨id, l.serial⟩ := List.eq_of_mem_replicate h

/-- Whatever was gained is of the id. -/
theorem Gain.Between.ids {g : Gain} {id : String} {l l' : TaskLock} (hg : g.Between id l l') :
    (∀ t ∈ g.guards, t.id = id) ∧ (∀ w ∈ g.waiters, w.2.id = id) ∧ ∀ t ∈ g.kept, t.id = id := by
  refine ⟨fun t ht => ?_, fun w hw => ?_, fun t ht => ?_⟩
  · have hmem : t ∈ l'.guards id := hg.guards ▸ List.mem_append_right _ ht
    rw [id_of_mem_guards hmem]
  · have hmem : w ∈ l'.waiters id := hg.waiters ▸ List.mem_append_right _ hw
    rw [id_of_mem_waiters hmem]
  · have hmem : t ∈ l'.kept id := hg.kept ▸ List.mem_append_right _ ht
    rw [id_of_mem_kept hmem]

/-- Who only looks at a lock gains nothing by it. -/
theorem Gain.between_self (id : String) (l : TaskLock) : Gain.Between {} id l l :=
  ⟨(List.append_nil _).symm, (List.append_nil _).symm, (List.append_nil _).symm⟩

/-- A part that is all of one id is seen in the view of that id, and in no other. -/
theorem filter_append_id {α : Type} (f : α → String) {l l' : List α} {id : String}
    (h : ∀ a ∈ l', f a = id) (i : String) :
    ((l ++ l').filter fun a => f a = i) =
      (l.filter fun a => f a = i) ++ if id = i then l' else [] := by
  rw [List.filter_append]
  congr 1
  split
  · next hi => exact filter_of_forall fun a ha => (h a ha).trans hi
  · next hi => exact filter_of_forall_not fun a ha heq => hi ((h a ha).symm.trans heq)

/-- Asking for a lock is a visit of its id, and the last one. -/
theorem lastVisit?_asked (id : String) (locks : Locks) (g : Gain) (s : Tenancy) (i : String) :
    (s.asked id locks g).lastVisit? i =
      if id = i then some (s.locks.ticketOf s.now id, s.now) else s.lastVisit? i := by
  show ((s.locks.ticketOf s.now id, s.now) :: s.visits).find? (fun v => v.1.id = i) = _
  rw [List.find?_cons]
  by_cases hi : id = i
  · rw [if_pos hi, show decide ((s.locks.ticketOf s.now id).id = i) = true from decide_eq_true hi]
  · rw [if_neg hi, show decide ((s.locks.ticketOf s.now id).id = i) = false from
      decide_eq_false hi]
    rfl

namespace Kept

variable (h : s.Kept)

include h

/-- Whether the lock of an id is in the table or has to be made, it is what those who refer to it
have made of it. -/
theorem lists (id : String) :
    (s.view id).guards = (s.locks.lockOf s.now id).1.guards id ∧
      (s.view id).waiters = (s.locks.lockOf s.now id).1.waiters id ∧
      (s.view id).kept = (s.locks.lockOf s.now id).1.kept id := by
  obtain ⟨hguards, hwaiters, hkept, -⟩ := h.exact id
  rw [hguards, hwaiters, hkept]
  unfold view lockOf
  cases s.locks.table.find? id with
  | none => exact ⟨rfl, rfl, rfl⟩
  | some l => exact ⟨rfl, rfl, rfl⟩

/-- Every lock of the table has a ticket that was given. -/
theorem serial_lt {id : String} {l : TaskLock} (hl : s.locks.table.find? id = some l) :
    l.serial < s.locks.nextSerial :=
  h.serials _ (List.mem_of_find?_eq_some ((h.exact id).visited l hl))

/-- The ticket that is given for an id is one of the next table. -/
theorem ticketOf_serial_lt (id : String) :
    (s.locks.ticketOf s.now id).serial <
      if (s.locks.lockOf s.now id).2 then s.locks.nextSerial + 1 else s.locks.nextSerial := by
  unfold ticketOf lockOf
  cases hl : s.locks.table.find? id with
  | none => exact Nat.lt_succ_self _
  | some l => exact h.serial_lt hl

omit h in
/-- Every view after asking for a lock, with what was gained in that of the id. -/
theorem view_asked {id : String} {locks : Locks} {l l' : TaskLock} {g : Gain}
    (hg : g.Between id l l') (i : String) :
    (s.asked id locks g).view i =
      ⟨locks.table.find? i, (s.view i).guards ++ (if id = i then g.guards else []),
        (s.view i).waiters ++ (if id = i then g.waiters else []),
        (s.view i).kept ++ (if id = i then g.kept else []),
        if id = i then some (s.locks.ticketOf s.now id, s.now) else (s.view i).visited⟩ := by
  obtain ⟨hguards, hwaiters, hkept⟩ := hg.ids
  unfold view
  rw [lastVisit?_asked]
  unfold asked
  dsimp only
  rw [filter_append_id (fun t : Ticket => t.id) hguards i,
    filter_append_id (fun w : Nat × Ticket => w.2.id) hwaiters i,
    filter_append_id (fun t : Ticket => t.id) hkept i]

/-- What was gained by asking for a lock is seen in the view of its id alone. -/
theorem turned_asked {id : String} {locks : Locks} {l : TaskLock} {g : Gain}
    (hasked : s.locks.Asked s.now id locks l)
    (hg : g.Between id (s.locks.lockOf s.now id).1 l) : s.Turned (s.asked id locks g) id l := by
  intro i
  rw [view_asked hg, hasked.find]
  by_cases hi : id = i
  · subst hi
    obtain ⟨hguards, hwaiters, hkept⟩ := h.lists id
    simp only [if_true]
    unfold View.of ticketOf
    rw [hguards, hwaiters, hkept, ← hg.guards, ← hg.waiters, ← hg.kept, hasked.serial,
      hasked.touched]
  · simp only [if_neg hi, List.append_nil]
    rfl

/-- Asking for a lock keeps everything in order. -/
theorem asked {id : String} {locks : Locks} {l : TaskLock} {g : Gain}
    (hasked : s.locks.Asked s.now id locks l)
    (hg : g.Between id (s.locks.lockOf s.now id).1 l)
    (hnumbers : g.waiters.map (·.1) = List.range' s.arrivals g.waiters.length) :
    s.Turned (s.asked id locks g) id l ∧ (s.asked id locks g).Kept := by
  have hturned := h.turned_asked hasked hg
  have hnew : ∀ w ∈ g.waiters, w.1 < s.arrivals + g.waiters.length := by
    intro w hw
    have hmem : w.1 ∈ g.waiters.map (·.1) := List.mem_map_of_mem hw
    rw [hnumbers] at hmem
    exact (List.mem_range'_1.1 hmem).2
  refine ⟨hturned, hturned.exact h.exact, hasked.sound, ?_, fun w hw => ?_, fun v hv => ?_⟩
  · show ((s.waiters ++ g.waiters).map (·.1)).Nodup
    rw [List.map_append, hnumbers]
    refine List.nodup_append'.2 ⟨h.numbers, List.nodup_range', fun n hn hrange => ?_⟩
    -- the old numbers are below the new ones
    obtain ⟨w, hw, rfl⟩ := List.mem_map.1 hn
    exact absurd (h.below w hw) (Nat.not_lt.2 (List.mem_range'_1.1 hrange).1)
  · rcases List.mem_append.1 hw with hw | hw
    · exact Nat.lt_add_right _ (h.below w hw)
    · exact hnew w hw
  · show v.1.serial < locks.nextSerial
    rw [hasked.next]
    rcases List.mem_cons.1 hv with rfl | hv
    · exact h.ticketOf_serial_lt id
    · have hold := h.serials v hv
      split
      · exact Nat.lt_succ_of_lt hold
      · exact hold

/-! ### The ways to ask -/

/-- A reference that is kept is counted by the lock and found among those who refer to it. -/
theorem get (id : String) : ∃ l, s.Turned (s.apply (.get id)) id l ∧ (s.apply (.get id)).Kept := by
  refine ⟨_, h.asked (h.sound.asked_keep s.now id) ⟨?_, ?_, ?_⟩ rfl⟩
  · exact (List.append_nil _).symm
  · exact (List.append_nil _).symm
  · exact List.replicate_succ'

/-- A visit leaves nobody with a reference, and is the last one of the id. -/
theorem touch (id : String) :
    ∃ l, s.Turned (s.apply (.touch id)) id l ∧ (s.apply (.touch id)).Kept := by
  exact ⟨_, h.asked (h.sound.asked_touch s.now id) (Gain.between_self id _) rfl⟩

omit h in
/-- A lock that is free gains a guard when it is taken. -/
theorem between_held {id : String} (hfree : s.locks.isHeld id = false) :
    Gain.Between { guards := [s.locks.ticketOf s.now id] } id (s.locks.lockOf s.now id).1
      { (s.locks.lockOf s.now id).1 with held := true } := by
  refine ⟨?_, (List.append_nil _).symm, (List.append_nil _).symm⟩
  unfold TaskLock.guards
  rw [lockOf_held, hfree]
  rfl

/-- Who tries a lock either holds it then or comes away with nothing. -/
theorem tryLock (id : String) :
    ∃ l, s.Turned (s.apply (.tryLock id)) id l ∧ (s.apply (.tryLock id)).Kept := by
  have happly : s.apply (.tryLock id) = s.asked id (s.locks.tryAcquire s.now id).2
      { guards := (s.locks.tryAcquire s.now id).1.toList } := rfl
  rw [happly]
  rcases h.sound.asked_tryAcquire s.now id with ⟨-, hnone, hasked⟩ | ⟨hfree, hsome, hasked⟩
  · rw [hnone]
    exact ⟨_, h.asked hasked (Gain.between_self id _) rfl⟩
  · rw [hsome]
    exact ⟨_, h.asked hasked (between_held hfree) rfl⟩

/-- Who asks for a lock either holds it then or stands in line for it. -/
theorem lock (id : String) :
    ∃ l, s.Turned (s.apply (.lock id)) id l ∧ (s.apply (.lock id)).Kept := by
  have happly : s.apply (.lock id) = s.asked id (s.locks.acquire s.now id s.arrivals).2
      (if (s.locks.acquire s.now id s.arrivals).1.2
        then { guards := [(s.locks.acquire s.now id s.arrivals).1.1] }
        else { waiters := [(s.arrivals, (s.locks.acquire s.now id s.arrivals).1.1)] }) := rfl
  rw [happly]
  rcases h.sound.asked_acquire s.now id s.arrivals with
    ⟨-, hticket, hasked⟩ | ⟨hfree, hticket, hasked⟩
  · rw [hticket]
    refine ⟨_, h.asked hasked ⟨?_, ?_, ?_⟩ rfl⟩
    · exact (List.append_nil _).symm
    · exact List.map_append
    · exact (List.append_nil _).symm
  · rw [hticket]
    exact ⟨_, h.asked hasked (between_held hfree) rfl⟩

end Kept

end Tenancy

end ComputePool
