import ComputePool.Recovery
import ComputePool.Serving
import ComputePool.Simulation.Agenda
import ComputePool.Simulation.Fault
import ComputePool.Transition

/-!
# Simulation

A pool under observation. Its services run as they always do, but their calls can be disturbed by
plans, can be shown another replicate list than the stored one, and are counted; the requests that
the services publish and the updates that are served are noted down. Its agenda holds the duties
that come up as time passes.
-/

namespace ComputePool

/-- A pool with its plans, notes and duties. -/
structure Simulation where
  pool : Pool
  plans : List Plan
  /-- The number of calls so far. -/
  calls : Table Call Nat
  /-- The replicate lists that services are shown. -/
  shown : Table String ReplicateList
  /-- The requests published by services, with their acceptance. -/
  published : List (String × Bool)
  /-- The tasks whose updates were served. -/
  consumed : List String
  /-- The tasks whose updates break down. -/
  broken : List String
  agenda : Agenda

namespace Simulation

/-- A pool left to itself. -/
def ofPool (pool : Pool) : Simulation where
  pool := pool
  plans := []
  calls := .empty
  shown := .empty
  published := []
  consumed := []
  broken := []
  agenda := .empty

/-- Applies an operation to the pool. -/
def onPool {α : Type} (act : StateM Pool α) : StateM Simulation α :=
  modifyGet fun s =>
    let (a, pool) := act s.pool
    (a, { s with pool })

/-- Counts a call, and tells how it is disturbed. -/
def meet (call : Call) : StateM Simulation (Option Disturbance) :=
  modifyGet fun s =>
    let (d, plans) := Plan.meet call s.plans
    (d, { s with plans, calls := s.calls.insert call ((s.calls.find? call).getD 0 + 1) })

/-- A call on the records. -/
def storeCall {α : Type} (call : Call) (act : StateM Simulation (Except StoreError α)) :
    StateM Simulation (Except StoreError α) := do
  match ← meet call with
  | some (.failStore e) => return .error e
  | some (.first f _) =>
    modify fun s => { s with pool := f s.pool }
    act
  | _ => act

/-- A call on the chain. -/
def chainCall {α : Type} (call : Call) (act : StateM Simulation (Except ChainError α)) :
    StateM Simulation (Except ChainError α) := do
  match ← meet call with
  | some (.failChain e) => return .error e
  | some (.first f _) =>
    modify fun s => { s with pool := f s.pool }
    act
  | _ => act

open Collaborators in
/-- The calls of a pool under observation. Those on the clock, the result repository, the signer,
the locks, the queue and chance are never disturbed. -/
instance : Collaborators (StateM Simulation) where
  now := onPool now
  getTask id := storeCall .getTask (onPool (getTask id))
  getTasks ids := storeCall .getTasks (onPool (getTasks ids))
  findTasks statuses := storeCall .findTasks (onPool (findTasks statuses))
  bestOpenTask excludeTee excluded :=
    storeCall .bestOpenTask (onPool (bestOpenTask excludeTee excluded))
  saveTask t := storeCall .saveTask (onPool (saveTask t))
  scanBound :=
    return (← onPool scanBound) + Plan.tasksLeft (← get).plans
  createList id := storeCall .createList (onPool (createList id))
  getList id := storeCall .getList do
    match (← get).shown.find? id with
    | some l => return .ok (some l)
    | none => onPool (getList id)
  getReplicate id wallet := storeCall .getReplicate (onPool (getReplicate id wallet))
  addReplicate read wallet := storeCall .addReplicate (onPool (addReplicate read wallet))
  updateReplicate id wallet u :=
    storeCall .updateReplicate (onPool (updateReplicate id wallet u))
  removeReplicate id wallet := storeCall .removeReplicate (onPool (removeReplicate id wallet))
  getWorker wallet := storeCall .getWorker (onPool (getWorker wallet))
  canAcceptMoreWork wallet := storeCall .canAcceptMoreWork (onPool (canAcceptMoreWork wallet))
  isAllowedToJoin wallet := storeCall .isAllowedToJoin (onPool (isAllowedToJoin wallet))
  hasEnoughGas wallet := storeCall .hasEnoughGas (onPool (hasEnoughGas wallet))
  removeWorker wallet := storeCall .removeWorker (onPool (removeWorker wallet))
  addWork wallet id := storeCall .addWork (onPool (addWork wallet id))
  endWork wallet id := storeCall .endWork (onPool (endWork wallet id))
  workIds wallet := storeCall .workIds (onPool (workIds wallet))
  getChainTask id := chainCall .getChainTask (onPool (getChainTask id))
  getContribution id wallet := chainCall .getContribution (onPool (getContribution id wallet))
  isResultUploaded id := onPool (isResultUploaded id)
  authorize wallet id enclaveChallenge := onPool (authorize wallet id enclaveChallenge)
  tryLock id := onPool (tryLock id)
  unlock t := onPool (unlock t)
  isQueued id := onPool (isQueued id)
  offer t := onPool (offer t)
  draw n := onPool (draw n)
  maxAttempts := onPool maxAttempts

/-- Services publish to the pool's queue; the request is noted down. -/
instance : Publisher (StateM Simulation) where
  publish id := do
    let accepted ← publishRequest id
    modify fun s => { s with published := s.published ++ [(id, accepted)] }
    return accepted

/-- Between two disturbances as many updates are served as in a pool left to itself; one
disturbance can at most put all tasks back to their beginning, those that are to come included. -/
instance : Dispatching (StateM Simulation) where
  dispatch f := onPool (Dispatching.dispatch f)
  updateBound := do
    let s ← get
    let tasks := s.pool.store.tasks.size + Plan.tasksLeft s.plans
    let beginnings := (Named.all : List TaskStatus).length * tasks
    return (s.pool.updateBound + beginnings) * (Plan.callsLeft s.plans + 1)

/-! ## Running the routines -/

/-- Serves an update: it is noted down, and takes place unless it breaks down. -/
def serve (id : String) : StateM Simulation Unit := do
  modify fun s => { s with consumed := s.consumed ++ [id] }
  if (← get).broken.contains id then return ()
  serveRequest id

/-- Runs the routines until all of them wait. -/
def settle : StateM Simulation Unit := ComputePool.settle serve

/-- Changes the dispatcher. -/
def changeDispatcher (f : Dispatcher → Dispatcher) : StateM Simulation Unit :=
  modify fun s => { s with pool := s.pool.changeDispatcher f }

/-- Does what has come up. -/
def perform : Duty → StateM Simulation Unit
  | .topUp => changeDispatcher Dispatcher.topUp
  | .sweep => do changeDispatcher (Dispatcher.sweep (← get).pool.now)
  | .detect d => do let _ ← (ComputePool.detect d).run

/-- Performs duties one after the other. -/
def performAll : List Duty → StateM Simulation Unit
  | [] => return ()
  | d :: rest => do
    perform d
    performAll rest

/-- Stops the routines, and gives up all duties. -/
def shutdown : StateM Simulation Unit := do
  changeDispatcher Dispatcher.shutdown
  modify fun s => { s with agenda := .empty }
  settle

/-! ## Duties -/

/-- Begins a watch. Its duties are done as soon as the routines that can go on have done so, and
then again and again; after a shutdown they are not. -/
def watch (duties : List (Duty × Span)) : StateM Simulation Unit := do
  serveReady serve
  let s ← get
  if !s.pool.dispatcher.isShutdown then
    set { s with agenda := s.agenda.watch s.pool.now.toNanos duties }
    performAll (duties.map (·.1))
  settle

/-- Time passes. The routines that can go on do so, the duties that have come up are done, and the
routines go on with what these brought. -/
def advance (ms : Nat) : StateM Simulation Unit := do
  modify fun s => { s with pool := s.pool.advance ms }
  settle
  let duties ← modifyGet fun s =>
    let (duties, agenda) := s.agenda.pass s.pool.now.toNanos
    (duties, { s with agenda })
  performAll duties
  settle

end Simulation

end ComputePool
