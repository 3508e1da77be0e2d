import ComputePool.Error
import ComputePool.Table
import ComputePool.Worker.Basic

/-!
# The worker registry

The workers of the pool by wallet, and the pool's policy on who may join. An operation that
changes a worker fails for an unknown wallet and then changes nothing.
-/

namespace ComputePool

/-- The workers and the policy. -/
structure Registry where
  workers : Table String Worker
  /-- The wallets that may join; everyone may if it is empty. -/
  whitelist : List String
  /-- The least balance with which a worker is given work. -/
  minGas : UInt64

namespace Registry

/-- The least balance where none is configured. -/
def defaultMinGas : UInt64 := 10000000000000000

/-- A registry without workers. -/
def empty (whitelist : List String) (minGas : UInt64) : Registry := ⟨.empty, whitelist, minGas⟩

/-- Registers a worker, or replaces the one of its wallet. -/
def add (w : Worker) (r : Registry) : Registry := { r with workers := r.workers.insert w.wallet w }

/-- The worker of a wallet. -/
def worker? (wallet : String) (r : Registry) : Option Worker := r.workers.find? wallet

/-- The worker is known and has a free slot. -/
def canAccept (wallet : String) (r : Registry) : Bool := (r.worker? wallet).any Worker.hasFreeSlot

/-- The policy lets the wallet join. -/
def isAllowed (wallet : String) (r : Registry) : Bool :=
  r.whitelist.isEmpty || r.whitelist.contains wallet

/-- The worker is known and has the least balance. -/
def hasEnoughGas (wallet : String) (r : Registry) : Bool :=
  (r.worker? wallet).any fun w => r.minGas ≤ w.gas

/-- Removes the worker of a wallet. -/
def remove (wallet : String) (r : Registry) : Registry :=
  { r with workers := r.workers.erase wallet }

/-- Changes a known worker. -/
def modify (wallet : String) (f : Worker → Worker) (r : Registry) : Except StoreError Registry :=
  match r.worker? wallet with
  | none => .error (.notFound "worker" wallet)
  | some w => .ok { r with workers := r.workers.insert wallet (f w) }

/-- Records that a worker was admitted into a task. -/
def addTask (wallet chainTaskId : String) (r : Registry) : Except StoreError Registry :=
  r.modify wallet (·.addTask chainTaskId)

/-- Frees the computing slot that a worker holds for a task. -/
def releaseTask (wallet chainTaskId : String) (r : Registry) : Except StoreError Registry :=
  r.modify wallet (·.releaseTask chainTaskId)

/-- Every task a worker takes or took part in. -/
def taskIds (wallet : String) (r : Registry) : List String :=
  ((r.worker? wallet).map (·.participating)).getD []

end Registry

end ComputePool
