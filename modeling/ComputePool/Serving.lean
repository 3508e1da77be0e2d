import ComputePool.Collaborators

/-!
# Serving update requests

The loop that lets the dispatcher's routines work off the queue: an update at a time, in the order
in which the dispatcher hands them out, until every routine waits.
-/

namespace ComputePool

/-- A monad with a dispatcher and a clock. -/
class Dispatching (m : Type → Type) where
  /-- Applies an operation on the dispatcher at the present time. -/
  dispatch {α : Type} (f : Instant → Dispatcher → α × Dispatcher) : m α
  /-- At least the number of updates after which every routine waits. -/
  updateBound : m Nat

variable {m : Type → Type} [Monad m] [Dispatching m]

/-- Serves at most so many updates. -/
def serveAtMost (serve : String → m Unit) : (updates : Nat) → m Unit
  | 0 => return ()
  | updates + 1 => do
    match ← Dispatching.dispatch Dispatcher.next with
    | none => return ()
    | some (who, ticket) =>
      serve ticket.id
      Dispatching.dispatch fun _ d => ((), d.finish who ticket)
      serveAtMost serve updates

/-- Serves updates until every routine waits. -/
def settle (serve : String → m Unit) : m Unit := do
  serveAtMost serve (← Dispatching.updateBound)

/-- Serves at most so many updates of the routine that is first to go on, until it waits. -/
def serveTurn (serve : String → m Unit) : (updates : Nat) → m Unit
  | 0 => return ()
  | updates + 1 => do
    match ← Dispatching.dispatch Dispatcher.step with
    | none => return ()
    | some (who, ticket) =>
      serve ticket.id
      Dispatching.dispatch fun _ d => ((), d.finish who ticket)
      serveTurn serve updates

/-- Lets so many routines go on one after the other, each until it waits. -/
def serveTurns (serve : String → m Unit) (updates : Nat) : (turns : Nat) → m Unit
  | 0 => return ()
  | turns + 1 => do
    serveTurn serve updates
    serveTurns serve updates turns

/-- Serves updates until every routine that could go on waits. Those that are woken meanwhile do
not go on yet. -/
def serveReady (serve : String → m Unit) : m Unit := do
  let turns ← Dispatching.dispatch fun _ d => (d.ready.length, d)
  serveTurns serve (← Dispatching.updateBound) turns

namespace Pool

/-- Applies an operation on the dispatcher. -/
def dispatch {α : Type} (f : Instant → Dispatcher → α × Dispatcher) (p : Pool) : α × Pool :=
  let (a, dispatcher) := f p.now p.dispatcher
  (a, { p with dispatcher })

/-- The transitions that these tasks have before them at most. -/
def transitionsLeft : List Task → Nat
  | [] => 0
  | t :: rest => TaskStatus.failed.rank - t.status.rank + transitionsLeft rest

/-- The transitions that the tasks have before them at most, with the requests and routines that
are there. Each update uses up a request or a waiting routine, and brings a new request only
along with a transition. -/
def updateBound (p : Pool) : Nat :=
  p.queue.size + p.dispatcher.active + transitionsLeft p.store.tasks.values + 1

end Pool

instance : Dispatching (StateM Pool) where
  dispatch f := modifyGet (Pool.dispatch f)
  updateBound := return (← get).updateBound

end ComputePool
