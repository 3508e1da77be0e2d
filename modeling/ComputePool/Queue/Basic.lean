import ComputePool.Task.Basic

/-!
# The queue of update requests

Requests to re-evaluate a task, each keyed by the task's status and contribution deadline at the
time it was made. A task id is queued at most once. The request served next is the one whose task
is furthest on, among those the one whose contribution deadline is earliest, and among those the
one made first.
-/

namespace ComputePool

/-- A queued request. -/
structure Request where
  chainTaskId : String
  status : TaskStatus
  deadline : Instant
  /-- Counts the accepted requests. -/
  seq : Nat
  enqueuedAt : Instant
deriving DecidableEq

/-- The greater request is served first. -/
instance : Ord Request where
  compare a b := (compare a.status b.status).then
    ((compare b.deadline a.deadline).then (compare b.seq a.seq))

/-- The request is served before the other. -/
def Request.precedes (a b : Request) : Bool := compare a b == .gt

/-- The request of a list that is served first. -/
def Request.first? : List Request → Option Request
  | [] => none
  | r :: rest =>
    match Request.first? rest with
    | none => some r
    | some s => if s.precedes r then some s else some r

/-- The queue of update requests. -/
structure UpdateQueue where
  /-- The queued requests, in no particular order. -/
  entries : List Request
  /-- The ids of the queued requests; an offer looks here and not through the entries. -/
  pending : List String
  nextSeq : Nat
  /-- How long a request stays queued. -/
  ttl : Span

namespace UpdateQueue

/-- A queue without requests. -/
def empty (ttl : Span) : UpdateQueue := ⟨[], [], 0, ttl⟩

/-- A request for the id is queued. -/
def contains (id : String) (q : UpdateQueue) : Bool := q.pending.contains id

/-- The number of queued requests. -/
def size (q : UpdateQueue) : Nat := q.entries.length

/-- Queues a request for a task, unless there is one; tells whether it did. -/
def offer (now : Instant) (t : Task) (q : UpdateQueue) : Bool × UpdateQueue :=
  if q.contains t.chainTaskId then (false, q)
  else (true, { q with
    entries := q.entries ++ [⟨t.chainTaskId, t.status, t.contributionDeadline, q.nextSeq, now⟩]
    pending := t.chainTaskId :: q.pending
    nextSeq := q.nextSeq + 1 })

/-- Takes out the request that is served first. -/
def pop (q : UpdateQueue) : Option Request × UpdateQueue :=
  match Request.first? q.entries with
  | none => (none, q)
  | some r => (some r, { q with
      entries := q.entries.erase r
      pending := q.pending.erase r.chainTaskId })

/-- Takes out at most `count` requests, in the order in which they are served. -/
def take : (count : Nat) → UpdateQueue → List Request × UpdateQueue
  | 0, q => ([], q)
  | count + 1, q =>
    match q.pop with
    | (none, q) => ([], q)
    | (some r, q) =>
      let (rest, q) := q.take count
      (r :: rest, q)

/-- Takes out all requests, in the order in which they are served. -/
def drain (q : UpdateQueue) : List Request × UpdateQueue := q.take q.size

/-- The request is still young enough to stay queued. -/
def isFresh (now : Instant) (ttl : Span) (r : Request) : Bool := !now.hasElapsed r.enqueuedAt ttl

/-- Drops the requests that are too old, and tells how many. -/
def prune (now : Instant) (q : UpdateQueue) : Nat × UpdateQueue :=
  let kept := q.entries.filter (isFresh now q.ttl)
  let expired := (q.entries.filter fun r => !isFresh now q.ttl r).map (·.chainTaskId)
  (q.entries.length - kept.length, { q with
    entries := kept
    pending := q.pending.filter fun id => !expired.contains id })

end UpdateQueue

end ComputePool
