import ComputePool.Queue.Basic

/-!
# Waiting for a request

Takers wait for a request by a bell. A ring wakes the taker who has waited longest; if nobody
waits, one ring is kept for the next to come. A taker who comes, or is woken, looks for a request,
and waits at the end of the line if there is none.

`Counter` is a queue with its bell and its takers. Takers act only when the counter is settled, in
the order in which they came or were woken.
-/

namespace ComputePool

/-- A bell that wakes one waiter per ring. -/
structure Bell where
  /-- Who waits, the longest first. -/
  waiting : List Nat
  /-- A ring was kept. -/
  rung : Bool
deriving DecidableEq, Repr

namespace Bell

/-- A bell by which nobody waits. -/
def silent : Bell := ⟨[], false⟩

/-- Rings, and tells who is woken. -/
def ring (b : Bell) : Option Nat × Bell :=
  match b.waiting with
  | [] => (none, { b with rung := true })
  | who :: rest => (some who, { b with waiting := rest })

/-- Uses up a kept ring. -/
def quiet (b : Bell) : Bell := { b with rung := false }

/-- Waits at the end of the line. A kept ring was heard, and gave nothing. -/
def listen (who : Nat) (b : Bell) : Bell := ⟨b.waiting ++ [who], false⟩

end Bell

/-- A queue at which takers wait. -/
structure Counter where
  queue : UpdateQueue
  bell : Bell
  /-- The takers who are to look for a request, in order. -/
  ready : List Nat
  /-- Who took what, in order. -/
  served : List (Nat × Request)

namespace Counter

/-- A counter without requests and takers. -/
def empty (ttl : Span) : Counter := ⟨.empty ttl, .silent, [], []⟩

/-- Offers a request; an accepted one rings the bell. -/
def offer (now : Instant) (t : Task) (c : Counter) : Bool × Counter :=
  match c.queue.offer now t with
  | (false, q) => (false, { c with queue := q })
  | (true, q) =>
    let (woken, bell) := c.bell.ring
    (true, { c with queue := q, bell, ready := c.ready ++ woken.toList })

/-- A taker comes. -/
def arrive (who : Nat) (c : Counter) : Counter := { c with ready := c.ready ++ [who] }

/-- A taker looks for a request. -/
def attempt (who : Nat) (c : Counter) : Counter :=
  match c.queue.pop with
  | (none, q) => { c with queue := q, bell := c.bell.listen who }
  | (some r, q) => { c with queue := q, bell := c.bell.quiet, served := c.served ++ [(who, r)] }

/-- Every taker who is to look for a request does so. -/
def settle (c : Counter) : Counter :=
  { c.ready.foldl (fun c who => c.attempt who) c with ready := [] }

/-- Hands out the record of who took what. -/
def collect (c : Counter) : List (Nat × Request) × Counter := (c.served, { c with served := [] })

end Counter

end ComputePool
