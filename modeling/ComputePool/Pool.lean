import ComputePool.Authorization
import ComputePool.Chain
import ComputePool.Dispatcher
import ComputePool.Store
import ComputePool.Worker.Registry

/-!
# The pool

Everything that the pool's services read and write: the clock, the records, the chain, the
workers, and the dispatcher with its queue and locks. Chance is a supply of rolls, one of which is
used up by each draw.

The operations here are the single steps of which the services are made, and the steps by which
the world outside changes the pool.
-/

namespace ComputePool

/-- The state of a pool. -/
structure Pool where
  now : Instant
  store : Store
  chain : Chain
  registry : Registry
  dispatcher : Dispatcher
  signer : Signer
  /-- The attempts at admitting a worker while others change the replicate list. -/
  maxAttempts : Nat
  /-- How the next draws fall. -/
  rolls : List Nat

namespace Pool

/-- The queue of update requests. -/
def queue (p : Pool) : UpdateQueue := p.dispatcher.queue

/-- The task locks. -/
def locks (p : Pool) : Locks := p.dispatcher.locks

/-! ## Records -/

/-- Applies an operation on the store that may fail; a failure changes nothing. -/
def writeStore {α : Type} (f : Store → Except StoreError (α × Store)) (p : Pool) :
    Except StoreError α × Pool :=
  match f p.store with
  | .ok (a, store) => (.ok a, { p with store })
  | .error e => (.error e, p)

/-- Applies an operation on the registry that may fail; a failure changes nothing. -/
def writeRegistry (f : Registry → Except StoreError Registry) (p : Pool) :
    Except StoreError Unit × Pool :=
  match f p.registry with
  | .ok registry => (.ok (), { p with registry })
  | .error e => (.error e, p)

/-- Stores a new task. -/
def insertTask (t : Task) : Pool → Except StoreError Task × Pool :=
  writeStore fun s => (s.insertTask t).map (t, ·)

/-- Saves a changed task. -/
def saveTask (t : Task) : Pool → Except StoreError Task × Pool :=
  writeStore (·.saveTask t)

/-- Creates the replicate list of a task. -/
def createList (id : String) : Pool → Except StoreError ReplicateList × Pool :=
  writeStore (·.createList id)

/-- Adds a fresh replicate to a list that was read before. -/
def addReplicate (read : ReplicateList) (wallet : String) (p : Pool) :
    Except StoreError ReplicateList × Pool :=
  p.writeStore (·.addReplicate p.now read wallet)

/-- Appends a status update to a replicate. -/
def updateReplicate (id wallet : String) (u : StatusUpdate) (p : Pool) :
    Option Replicate × Pool :=
  let (r, store) := p.store.updateReplicate id wallet u
  (r, { p with store })

/-- Removes the replicates of a wallet. -/
def removeReplicate (id wallet : String) (p : Pool) : Bool × Pool :=
  let (removed, store) := p.store.removeReplicate id wallet
  (removed, { p with store })

/-- Registers a worker. -/
def addWorker (w : Worker) (p : Pool) : Pool := { p with registry := p.registry.add w }

/-- Removes a worker, and tells which. -/
def removeWorker (wallet : String) (p : Pool) : Option Worker × Pool :=
  (p.registry.worker? wallet, { p with registry := p.registry.remove wallet })

/-- Records that a worker was admitted into a task. -/
def addWork (wallet id : String) : Pool → Except StoreError Unit × Pool :=
  writeRegistry (·.addTask wallet id)

/-- Frees the computing slot that a worker holds for a task. -/
def endWork (wallet id : String) : Pool → Except StoreError Unit × Pool :=
  writeRegistry (·.releaseTask wallet id)

/-- Changes what the chain says. -/
def changeChain (f : Chain → Chain) (p : Pool) : Pool := { p with chain := f p.chain }

/-! ## Clock, chance, queue and locks -/

/-- Time passes. -/
def advance (ms : Nat) (p : Pool) : Pool := { p with now := p.now.plusMillis ms }

/-- Draws a number below `n`. -/
def draw (n : Nat) (p : Pool) : Nat × Pool :=
  (p.rolls.headD 0 % n, { p with rolls := p.rolls.tail })

/-- Offers a request for a task to the queue. -/
def offer (t : Task) (p : Pool) : Bool × Pool :=
  let (accepted, dispatcher) := p.dispatcher.offer p.now t
  (accepted, { p with dispatcher })

/-- Takes the lock of a task, unless it is held. -/
def tryLock (id : String) (p : Pool) : Option Ticket × Pool :=
  let (t, dispatcher) := p.dispatcher.tryAcquire p.now id
  (t, { p with dispatcher })

/-- Releases a lock. -/
def unlock (t : Ticket) (p : Pool) : Pool := { p with dispatcher := p.dispatcher.release t }

/-- Changes the dispatcher. -/
def changeDispatcher (f : Dispatcher → Dispatcher) (p : Pool) : Pool :=
  { p with dispatcher := f p.dispatcher }

end Pool

end ComputePool
