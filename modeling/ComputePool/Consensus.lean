import ComputePool.Chain
import ComputePool.Replicate.List

/-!
# Consensus

When a task has enough replicates, and when its replicates agree with a consensus on chain.
-/

namespace ComputePool

/-- The number of live replicates that a task wants; a trust of zero is taken as one. -/
def trustTarget (trust : UInt32) : Nat := max trust.toNat 1

/-- The live replicates are too few for the trust target. -/
def ReplicateList.needsMore (trust : UInt32) (l : ReplicateList) : Bool :=
  l.aliveCount < trustTarget trust

/-- The chain is revealing, and at least as many replicates contributed its consensus value as it
counted winners. -/
def ReplicateList.agreesWith (t : ChainTask) (l : ReplicateList) : Bool :=
  t.status == .revealing && t.winnerCounter.toNat ≤ l.winnerCount t.consensusValue

end ComputePool
