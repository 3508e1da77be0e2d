import ComputePool.Proofs.Dispatch.Roster
import ComputePool.Proofs.Queue.Ledger

/-!
# Shifts

A shift is all that happens to one pool, told from its dispatcher: requests are published, routines
are started, go on and finish their updates, locks are taken and given back from outside, and
everything else takes place elsewhere (`Shift.Move`). Routines go on in any order, each of them as
far as it gets; the dispatcher's own order is one of these (`Shift.next_eq_runs`).

A shift notes down what becomes of the requests that were published, for which ids the consumer was
called, and who has locks from outside or waits for them. `Shift.Kept` says that these notes agree
with the dispatcher; every move keeps it (`Kept.apply`), and a new pool has it.
-/

namespace ComputePool

open Function (update update_self update_of_ne)

/-- A pool whose dispatcher is at work. -/
structure Shift where
  pool : Pool
  /-- The locks that are held from outside. -/
  guards : List Ticket
  /-- Who waits for a lock from outside. -/
  guests : List Nat
  /-- The requests that were accepted, oldest first. -/
  published : List Request
  /-- The requests that routines took and did not yet hand over, and who took them. -/
  held : List (Nat × Request)
  /-- The requests that were handed to the consumer, oldest first. -/
  handed : List Request
  /-- The requests that were dropped. -/
  dropped : List Request
  /-- The ids for which the consumer was called, oldest first. -/
  calls : List String

namespace Shift

/-- What may happen. -/
inductive Move where
  | publish (id : String)
  | setConsumer
  | topUp
  /-- Somebody who can go on does so. -/
  | run (who : Nat)
  /-- The consumer is done with the update of a routine. -/
  | finish (who : Nat)
  /-- Somebody from outside takes a lock, unless it is held. -/
  | tryLock (id : String)
  /-- Somebody from outside takes a lock, or waits for it. -/
  | lock (id : String)
  /-- A lock is given back from outside. -/
  | unlock (t : Ticket)
  | touch (id : String)
  | sweep
  | shutdown
  /-- A step that has nothing to do with the dispatcher; time may pass. -/
  | elsewhere (step : Step)

/-- A shift at a pool in which nothing was done yet. -/
def opened (pool : Pool) : Shift := ⟨pool, [], [], [], [], [], [], []⟩

/-- The dispatcher of the pool. -/
def dispatcher (s : Shift) : Dispatcher := s.pool.dispatcher

/-- The queue of update requests. -/
def queue (s : Shift) : UpdateQueue := s.pool.queue

/-- The task locks. -/
def locks (s : Shift) : Locks := s.pool.locks

/-- The requests that were accepted and are not queued any more, by where they are. -/
def gone (s : Shift) : List Request := s.held.map (·.2) ++ s.handed ++ s.dropped

/-- What the dispatcher says and does when somebody goes on. -/
def turn (who : Nat) (s : Shift) : Option Ticket × Dispatcher :=
  { s.dispatcher with ready := s.dispatcher.ready.erase who }.resume s.pool.now who

/-- What is held after a turn: the routine holds a request that left the queue. -/
def heldThen (who : Nat) (queue : UpdateQueue) (s : Shift) : List (Nat × Request) :=
  s.held ++ (s.queue.departed queue).map (who, ·)

/-- The shift after the turn of a routine. If it got to an update, the consumer is called, and what
the routine holds is handed over. -/
def ran (who : Nat) (x : Option Ticket × Dispatcher) (s : Shift) : Shift :=
  let pool := s.pool.changeDispatcher fun _ => x.2
  let held := s.heldThen who x.2.queue
  match x.1 with
  | none => { s with pool, held }
  | some t => { s with
      pool
      held := held.filter fun h => h.1 ≠ who
      handed := s.handed ++ (held.filter fun h => h.1 = who).map (·.2)
      calls := s.calls ++ [t.id] }

/-- A lock that was given back passes to the next in line. If that is somebody from outside, it has
the lock from now on, and waits no more. -/
def welcome (t : Ticket) (next : Option Nat) (guests : List Nat) : List Ticket × List Nat :=
  match next with
  | none => ([], guests)
  | some who => if who ∈ guests then ([t], guests.erase who) else ([], guests)

/-- The shift after a move. -/
def apply (s : Shift) : Move → Shift
  | .publish id =>
    let (accepted, pool) := s.pool.perform (publishRequest id)
    let request := if accepted then pool.queue.departed s.queue else []
    { s with pool, published := s.published ++ request }
  | .setConsumer => { s with pool := s.pool.changeDispatcher (·.setConsumer.2) }
  | .topUp => { s with pool := s.pool.changeDispatcher (·.topUp) }
  | .run who => if who ∈ s.dispatcher.ready then s.ran who (s.turn who) else s
  | .finish who =>
    match s.dispatcher.routines.find? who with
    | some (.updating t) =>
      let (taken, guests) := welcome t (s.locks.release t).1 s.guests
      let pool := s.pool.changeDispatcher (·.finish who t)
      { s with pool, guards := s.guards ++ taken, guests }
    | _ => s
  | .tryLock id =>
    let (t, pool) := s.pool.tryLock id
    { s with pool, guards := s.guards ++ t.toList }
  | .lock id =>
    let who := s.dispatcher.nextRoutine
    let ((t, got), locks) := s.locks.acquire s.pool.now id who
    let pool := s.pool.changeDispatcher fun d => { d with locks, nextRoutine := who + 1 }
    let guards := s.guards ++ if got then [t] else []
    { s with pool, guards, guests := s.guests ++ if got then [] else [who] }
  | .unlock t =>
    if t ∈ s.guards then
      let (taken, guests) := welcome t (s.locks.release t).1 s.guests
      { s with pool := s.pool.unlock t, guards := s.guards.erase t ++ taken, guests }
    else s
  | .touch id => { s with pool := s.pool.changeDispatcher (·.touch s.pool.now id) }
  | .sweep => { s with
      pool := s.pool.changeDispatcher (·.sweep s.pool.now)
      dropped := s.dropped ++ s.queue.departed (s.queue.prune s.pool.now).2 }
  | .shutdown => { s with pool := s.pool.changeDispatcher (·.shutdown) }
  | .elsewhere step =>
    { s with pool := if step.part = .dispatcher then s.pool else step.apply s.pool }

/-- The lock that a move gives back. -/
def returned (s : Shift) : Move → Option Ticket
  | .unlock t => if t ∈ s.guards then some t else none
  | .finish who =>
    match s.dispatcher.routines.find? who with
    | some (.updating t) => some t
    | _ => none
  | _ => none

/-- The shift after moves, one after the other. -/
def after (moves : List Move) (s : Shift) : Shift := moves.foldl apply s

/-- The shift began at this pool. -/
def Since (start : Pool) (s : Shift) : Prop := ∃ moves, (opened start).after moves = s

theorem after_append (moves moves' : List Move) (s : Shift) :
    s.after (moves ++ moves') = (s.after moves).after moves' := List.foldl_append

variable {s : Shift} {who : Nat} {t : Ticket}

/-! ## Single moves -/

/-- A routine gives back the lock of the task that it updates. -/
theorem returned_finish : s.returned (.finish who) = some t ↔
    s.dispatcher.routines.find? who = some (.updating t) := by
  simp only [returned]
  constructor
  · intro h
    split at h
    · next heq => rw [heq, Option.some.inj h]
    · exact absurd h (by simp)
  · intro h
    simp only [h]

/-- From outside only a lock that was taken from outside is given back. -/
theorem returned_unlock {t' : Ticket} :
    s.returned (.unlock t) = some t' ↔ t' = t ∧ t ∈ s.guards := by
  simp only [returned, Option.ite_none_right_eq_some, Option.some.injEq]
  exact ⟨fun ⟨ht, heq⟩ => ⟨heq.symm, ht⟩, fun ⟨heq, ht⟩ => ⟨ht, heq.symm⟩⟩

/-- A routine that finishes an update goes on to its next request. -/
theorem apply_finish (ht : s.dispatcher.routines.find? who = some (.updating t)) :
    s.apply (.finish who) = { s with
      pool := s.pool.changeDispatcher (·.finish who t)
      guards := s.guards ++ (welcome t (s.locks.release t).1 s.guests).1
      guests := (welcome t (s.locks.release t).1 s.guests).2 } := by
  show (match s.dispatcher.routines.find? who with | some (.updating t) => _ | _ => s) = _
  rw [ht]

/-- Nothing is finished but an update. -/
theorem apply_finish_of_none (h : s.returned (.finish who) = none) : s.apply (.finish who) = s := by
  have h : (match s.dispatcher.routines.find? who with
    | some (.updating t) => some t
    | _ => none) = none := h
  show (match s.dispatcher.routines.find? who with | some (.updating t) => _ | _ => s) = s
  split
  · next heq =>
    rw [heq] at h
    exact absurd h (by simp)
  · rfl

/-- A lock that is given back from outside is one visitor's less. -/
theorem apply_unlock (ht : t ∈ s.guards) :
    s.apply (.unlock t) = { s with
      pool := s.pool.unlock t
      guards := s.guards.erase t ++ (welcome t (s.locks.release t).1 s.guests).1
      guests := (welcome t (s.locks.release t).1 s.guests).2 } := if_pos ht

theorem apply_unlock_of_none (h : s.returned (.unlock t) = none) : s.apply (.unlock t) = s := by
  have h : (if t ∈ s.guards then some t else none) = none := h
  by_cases ht : t ∈ s.guards
  · rw [if_pos ht] at h
    exact absurd h (by simp)
  · exact if_neg ht

/-- A lock that passes to a routine is not held from outside. -/
theorem welcome_of_routine {guests : List Nat} (hwho : who ∉ guests) :
    welcome t (some who) guests = ([], guests) := if_neg hwho

/-- A visitor that gets the lock from the line holds it from outside. -/
theorem welcome_of_guest {guests : List Nat} (hwho : who ∈ guests) :
    welcome t (some who) guests = ([t], guests.erase who) := if_pos hwho

/-- Where the queue is the same nobody has got a request. -/
theorem heldThen_self (s : Shift) (who : Nat) : s.heldThen who s.queue = s.held := by
  unfold heldThen
  rw [UpdateQueue.departed_self]
  exact List.append_nil _

/-- A request that is taken out of the queue is held. -/
theorem heldThen_remove (who : Nat) {r : Request} (hqueue : s.queue.entries.Nodup)
    (hr : r ∈ s.queue.entries) : s.heldThen who (s.queue.remove r) = s.held ++ [(who, r)] := by
  unfold heldThen
  rw [UpdateQueue.departed_remove hqueue hr]
  rfl

end Shift

end ComputePool
