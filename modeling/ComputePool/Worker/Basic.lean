import ComputePool.Json.Persistent

/-!
# Workers

A worker of the pool, with the tasks it takes part in. It computes at most `maxTasks` tasks at
once.
-/

namespace ComputePool

/-- A worker known to the pool. -/
structure Worker where
  wallet : String
  name : String
  maxTasks : Nat
  teeEnabled : Bool
  /-- The balance left to pay for transactions. -/
  gas : UInt64
  lastAlive : Instant
  /-- Every task the worker was ever admitted into. -/
  participating : List String
  /-- The tasks for which the worker holds a computing slot. -/
  computing : List String
deriving DecidableEq

namespace Worker

/-- A worker that takes part in nothing yet; its name is its wallet. -/
def fresh (now : Instant) (wallet : String) (maxTasks : Nat) : Worker where
  wallet := wallet
  name := wallet
  maxTasks := maxTasks
  teeEnabled := false
  gas := 0
  lastAlive := now
  participating := []
  computing := []

/-- The worker may compute one more task. -/
def hasFreeSlot (w : Worker) : Bool := w.computing.length < w.maxTasks

/-- Appends an id, unless the list has it. -/
def addOnce (id : String) (ids : List String) : List String :=
  if ids.contains id then ids else ids ++ [id]

/-- The worker takes part in a task and computes it. -/
def addTask (chainTaskId : String) (w : Worker) : Worker :=
  { w with
    participating := addOnce chainTaskId w.participating
    computing := addOnce chainTaskId w.computing }

/-- The worker computes the task no longer. -/
def releaseTask (chainTaskId : String) (w : Worker) : Worker :=
  { w with computing := w.computing.filter (· != chainTaskId) }

end Worker

open Json in
instance : Persistent Worker where
  encode w := .obj <|
    field "wallet_address" w.wallet ++ field "name" w.name ++ field "max_nb_tasks" w.maxTasks ++
    field "tee_enabled" w.teeEnabled ++ field "gas_balance" w.gas ++
    field "last_alive_date" w.lastAlive ++
    field "participating_chain_task_ids" w.participating ++
    field "computing_chain_task_ids" w.computing
  decode? v := do
    let fields ← v.fields? ["wallet_address", "name", "max_nb_tasks", "tee_enabled",
      "gas_balance", "last_alive_date", "participating_chain_task_ids",
      "computing_chain_task_ids"]
    return {
      wallet := ← required? fields "wallet_address"
      name := ← required? fields "name"
      maxTasks := ← required? fields "max_nb_tasks"
      teeEnabled := ← required? fields "tee_enabled"
      gas := ← required? fields "gas_balance"
      lastAlive := ← required? fields "last_alive_date"
      participating := ← required? fields "participating_chain_task_ids"
      computing := ← required? fields "computing_chain_task_ids" }

end ComputePool
