import ComputePool.Table
import ComputePool.Time.Instant

/-!
# Task locks

One lock per task id, made when it is first asked for. A lock is held by at most one party; who
asks for a held lock either goes away or queues, and a lock that is released passes to the first
in the queue at once.

A lock that nobody refers to may be swept once it has not been asked for during the time to live;
a lock that is held, queued for, or kept through a handle stays. Every lock has a serial number,
so that a ticket for a swept lock is never taken for one of its successor.
-/

namespace ComputePool

/-- The lock of a task. -/
structure TaskLock where
  serial : Nat
  /-- When the lock was last asked for. -/
  touched : Instant
  held : Bool
  /-- Who waits for the lock, the first comer first. -/
  queue : List Nat
  /-- The number of handles kept on the lock. -/
  handles : Nat
deriving DecidableEq

/-- Someone outside the table refers to the lock. -/
def TaskLock.isReferenced (l : TaskLock) : Bool := l.held || !l.queue.isEmpty || 0 < l.handles

/-- Names one lock of the table. -/
structure Ticket where
  id : String
  serial : Nat
deriving DecidableEq, Repr

/-- The locks by task id. -/
structure Locks where
  table : Table String TaskLock
  /-- How long an unused lock is kept. -/
  ttl : Span
  nextSerial : Nat

namespace Locks

/-- A table without locks. -/
def empty (ttl : Span) : Locks := ⟨.empty, ttl, 0⟩

/-- The lock of an id, and whether it had to be made. -/
def lockOf (now : Instant) (id : String) (ls : Locks) : TaskLock × Bool :=
  match ls.table.find? id with
  | some l => ({ l with touched := now }, false)
  | none => (⟨ls.nextSerial, now, false, [], 0⟩, true)

/-- Asks for the lock of an id and changes it. -/
def access (now : Instant) (id : String) (f : TaskLock → TaskLock) (ls : Locks) :
    Ticket × Locks :=
  let (l, made) := ls.lockOf now id
  (⟨id, l.serial⟩, { ls with
    table := ls.table.insert id (f l)
    nextSerial := if made then ls.nextSerial + 1 else ls.nextSerial })

/-- Changes the lock that a ticket names, if the table still has it. -/
def modify (t : Ticket) (f : TaskLock → TaskLock) (ls : Locks) : Locks :=
  match ls.table.find? t.id with
  | some l => if l.serial = t.serial then { ls with table := ls.table.insert t.id (f l) } else ls
  | none => ls

/-- Keeps a handle on the lock of an id. -/
def keep (now : Instant) (id : String) (ls : Locks) : Ticket × Locks :=
  ls.access now id fun l => { l with handles := l.handles + 1 }

/-- Gives a handle up. -/
def drop (t : Ticket) (ls : Locks) : Locks :=
  ls.modify t fun l => { l with handles := l.handles - 1 }

/-- Asks for the lock of an id without taking it. -/
def touch (now : Instant) (id : String) (ls : Locks) : Locks :=
  let (t, ls) := ls.keep now id
  ls.drop t

/-- The lock of the id is held. -/
def isHeld (id : String) (ls : Locks) : Bool := (ls.table.find? id).any (·.held)

/-- Takes the lock of an id, unless it is held. -/
def tryAcquire (now : Instant) (id : String) (ls : Locks) : Option Ticket × Locks :=
  if ls.isHeld id then (none, ls.touch now id)
  else
    let (t, ls) := ls.access now id fun l => { l with held := true }
    (some t, ls)

/-- Takes the lock of an id, or queues for it as `who`; tells which. -/
def acquire (now : Instant) (id : String) (who : Nat) (ls : Locks) : (Ticket × Bool) × Locks :=
  if ls.isHeld id then
    let (t, ls) := ls.access now id fun l => { l with queue := l.queue ++ [who] }
    ((t, false), ls)
  else
    let (t, ls) := ls.access now id fun l => { l with held := true }
    ((t, true), ls)

/-- Releases a lock, and tells to whom it passes. -/
def release (t : Ticket) (ls : Locks) : Option Nat × Locks :=
  match (ls.table.find? t.id).filter (·.serial = t.serial) with
  | none => (none, ls)
  | some l =>
    match l.queue with
    | [] => (none, ls.modify t fun l => { l with held := false })
    | who :: rest => (some who, ls.modify t fun l => { l with queue := rest })

/-- The lock stays in a sweep. -/
def survives (now : Instant) (ttl : Span) (l : TaskLock) : Bool :=
  l.isReferenced || !now.hasElapsed l.touched ttl

/-- Sweeps the unused locks, and tells how many. -/
def prune (now : Instant) (ls : Locks) : Nat × Locks :=
  let kept := ls.table.filter fun _ l => survives now ls.ttl l
  (ls.table.size - kept.size, { ls with table := kept })

end Locks

end ComputePool
