import ComputePool.Locks
import ComputePool.Queue.Waiting

/-!
# The dispatcher

A bounded set of routines serves the queue of update requests. A routine takes the request that is
served first, waits for the lock of its task, updates the task while it holds the lock, and looks
for the next request. While the queue is empty it waits by the bell.

The dispatcher says which update comes next (`next`) and is told when it is done (`finish`); what
an update does is none of its business. Routines act in the order in which they were started or
woken. After a shutdown a routine ends when it would look for a request; an update whose request
was already taken still takes place.
-/

namespace ComputePool

/-- What a routine does. -/
inductive Activity where
  /-- It looks for a request, or waits by the bell. -/
  | looking
  /-- It took a request and waits for the lock of its task. -/
  | waiting (t : Ticket)
  /-- It updates a task and holds its lock. -/
  | updating (t : Ticket)
deriving DecidableEq

/-- Requests, locks and routines. -/
structure Dispatcher where
  queue : UpdateQueue
  bell : Bell
  locks : Locks
  /-- The number of routines to be kept. -/
  poolSize : Nat
  routines : Table Nat Activity
  /-- The routines that can go on, in the order in which they were started or woken. -/
  ready : List Nat
  nextRoutine : Nat
  /-- Someone is there to update tasks. -/
  hasConsumer : Bool
  isShutdown : Bool

namespace Dispatcher

/-- A dispatcher without requests, locks, routines and consumer. -/
def empty (poolSize : Nat) (ttl : Span) : Dispatcher where
  queue := .empty ttl
  bell := .silent
  locks := .empty ttl
  poolSize := poolSize
  routines := .empty
  ready := []
  nextRoutine := 0
  hasConsumer := false
  isShutdown := false

/-- The number of live routines. -/
def active (d : Dispatcher) : Nat := d.routines.size

/-- Wakes a routine, if there is one to wake. -/
def wake (who : Option Nat) (d : Dispatcher) : Dispatcher :=
  { d with ready := d.ready ++ who.toList }

/-- Offers a request for a task; an accepted one rings the bell. -/
def offer (now : Instant) (t : Task) (d : Dispatcher) : Bool × Dispatcher :=
  match d.queue.offer now t with
  | (false, q) => (false, { d with queue := q })
  | (true, q) =>
    let (woken, bell) := d.bell.ring
    (true, { d with queue := q, bell }.wake woken)

/-- Sets the consumer, unless there is one; tells whether it did. -/
def setConsumer (d : Dispatcher) : Bool × Dispatcher :=
  (!d.hasConsumer, { d with hasConsumer := true })

/-- Starts one routine. -/
def start (d : Dispatcher) : Dispatcher :=
  { d with
    routines := d.routines.insert d.nextRoutine .looking
    ready := d.ready ++ [d.nextRoutine]
    nextRoutine := d.nextRoutine + 1 }

/-- Starts as many routines as are missing. Without a consumer, and after a shutdown, none are. -/
def topUp (d : Dispatcher) : Dispatcher :=
  if d.hasConsumer && !d.isShutdown then Nat.repeat start (d.poolSize - d.active) d else d

/-! ## Locks from outside -/

/-- Takes the lock of a task, unless it is held. -/
def tryAcquire (now : Instant) (id : String) (d : Dispatcher) : Option Ticket × Dispatcher :=
  let (t, locks) := d.locks.tryAcquire now id
  (t, { d with locks })

/-- Releases a lock; the routine to which it passes is woken. -/
def release (t : Ticket) (d : Dispatcher) : Dispatcher :=
  let (who, locks) := d.locks.release t
  { d with locks }.wake who

/-- Asks for the lock of a task without taking it. -/
def touch (now : Instant) (id : String) (d : Dispatcher) : Dispatcher :=
  { d with locks := d.locks.touch now id }

/-! ## Routines -/

/-- A routine goes on with an activity. -/
def continueAs (who : Nat) (a : Activity) (d : Dispatcher) : Dispatcher :=
  { d with routines := d.routines.insert who a }

/-- A routine looks for a request: it ends after a shutdown, waits by the bell if there is none,
and otherwise asks for the lock of the task. Tells whether it got to the update. -/
def look (now : Instant) (who : Nat) (d : Dispatcher) : Option Ticket × Dispatcher :=
  if d.isShutdown then (none, { d with routines := d.routines.erase who })
  else
    match d.queue.pop with
    | (none, _) => (none, { d with bell := d.bell.listen who })
    | (some r, queue) =>
      let ((t, got), locks) := d.locks.acquire now r.chainTaskId who
      let d := { d with queue, locks, bell := d.bell.quiet }
      if got then (some t, d.continueAs who (.updating t))
      else (none, d.continueAs who (.waiting t))

/-- A routine that can go on does so until it gets to an update or has to wait. -/
def resume (now : Instant) (who : Nat) (d : Dispatcher) : Option Ticket × Dispatcher :=
  match d.routines.find? who with
  | some .looking => d.look now who
  | some (.waiting t) => (some t, d.continueAs who (.updating t))
  | _ => (none, d)

/-- These routines go on, one after the other, until one of them gets to an update. -/
def resumeAll (now : Instant) : List Nat → Dispatcher → Option (Nat × Ticket) × Dispatcher
  | [], d => (none, { d with ready := [] })
  | who :: rest, d =>
    match d.resume now who with
    | (some t, d) => (some (who, t), { d with ready := rest })
    | (none, d) => resumeAll now rest d

/-- Runs the routines until one of them gets to an update; `none` if all of them wait. -/
def next (now : Instant) (d : Dispatcher) : Option (Nat × Ticket) × Dispatcher :=
  d.resumeAll now d.ready

/-- Runs only the routine that is first to go on, until it gets to an update or has to wait. -/
def step (now : Instant) (d : Dispatcher) : Option (Nat × Ticket) × Dispatcher :=
  match d.ready with
  | [] => (none, d)
  | who :: rest =>
    let (t, d) := { d with ready := rest }.resume now who
    (t.map (who, ·), d)

/-- The update of a routine is done: it releases the lock and goes on before any other. -/
def finish (who : Nat) (t : Ticket) (d : Dispatcher) : Dispatcher :=
  let d := (d.release t).continueAs who .looking
  { d with ready := who :: d.ready }

/-! ## Sweeping and shutdown -/

/-- Sweeps the unused locks, then drops the requests that are too old. -/
def sweep (now : Instant) (d : Dispatcher) : Dispatcher :=
  { d with locks := (d.locks.prune now).2, queue := (d.queue.prune now).2 }

/-- Stops the routines: those that wait by the bell are woken to end. -/
def shutdown (d : Dispatcher) : Dispatcher :=
  { d with
    isShutdown := true
    ready := d.ready ++ d.bell.waiting
    bell := { d.bell with waiting := [] } }

end Dispatcher

end ComputePool
