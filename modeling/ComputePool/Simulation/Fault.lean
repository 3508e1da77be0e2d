import ComputePool.Error
import ComputePool.Json.Persistent
import ComputePool.Pool

/-!
# Planned faults

A plan disturbs some of the calls of one kind: it lets a number of them pass, and disturbs the
next ones, either by failing them or by letting something happen just before. Of several plans for
a kind of call only the first that is not used up counts.
-/

namespace ComputePool

/-- The kinds of calls that can be disturbed. -/
inductive Call where
  | getTask
  | getTasks
  | findTasks
  | bestOpenTask
  | saveTask
  | createList
  | getList
  | getReplicate
  | addReplicate
  | updateReplicate
  | removeReplicate
  | getWorker
  | canAcceptMoreWork
  | isAllowedToJoin
  | hasEnoughGas
  | removeWorker
  | addWork
  | endWork
  | workIds
  | getChainTask
  | getContribution
deriving DecidableEq, Repr

instance : Named Call where
  all := [.getTask, .getTasks, .findTasks, .bestOpenTask, .saveTask, .createList, .getList,
    .getReplicate, .addReplicate, .updateReplicate, .removeReplicate, .getWorker,
    .canAcceptMoreWork, .isAllowedToJoin, .hasEnoughGas, .removeWorker, .addWork, .endWork,
    .workIds, .getChainTask, .getContribution]
  name
    | .getTask => "get_task"
    | .getTasks => "get_tasks"
    | .findTasks => "find_by_current_status"
    | .bestOpenTask => "prioritized"
    | .saveTask => "save_task"
    | .createList => "create_replicates_list"
    | .getList => "get_replicates_list"
    | .getReplicate => "get_replicate"
    | .addReplicate => "add_new_replicate"
    | .updateReplicate => "update_replicate_status"
    | .removeReplicate => "remove_replicate"
    | .getWorker => "get_worker"
    | .canAcceptMoreWork => "can_accept_more_works"
    | .isAllowedToJoin => "is_allowed_to_join"
    | .hasEnoughGas => "has_enough_gas"
    | .removeWorker => "delete_worker"
    | .addWork => "add_chain_task_id"
    | .endWork => "remove_computed_chain_task_id"
    | .workIds => "chain_task_ids"
    | .getChainTask => "get_chain_task"
    | .getContribution => "get_chain_contribution"

/-- The call reads the chain. -/
def Call.readsChain : Call → Bool
  | .getChainTask | .getContribution => true
  | _ => false

/-- How a call is disturbed. -/
inductive Disturbance where
  | failStore (e : StoreError)
  | failChain (e : ChainError)
  /-- Something happens first, which brings so many tasks at most; then the call goes on. -/
  | first (act : Pool → Pool) (tasks : Nat)

/-- The tasks that a disturbance brings at most. -/
def Disturbance.tasks : Disturbance → Nat
  | .first _ tasks => tasks
  | _ => 0

/-- A plan to disturb calls of one kind. -/
structure Plan where
  call : Call
  /-- The number of calls to let pass. -/
  skip : Nat
  /-- The number of calls to disturb after these. -/
  times : Nat
  disturbance : Disturbance

/-- The plan still has calls to disturb. -/
def Plan.isStanding (p : Plan) : Bool := 0 < p.times

/-- The calls that plans still wait for, to let pass or to disturb. -/
def Plan.callsLeft : List Plan → Nat
  | [] => 0
  | p :: rest => p.skip + p.times + Plan.callsLeft rest

/-- The tasks that plans still bring at most. -/
def Plan.tasksLeft : List Plan → Nat
  | [] => 0
  | p :: rest => p.times * p.disturbance.tasks + Plan.tasksLeft rest

/-- Counts a call against the plans: what happens to it, and what is left of the plans. -/
def Plan.meet (call : Call) : List Plan → Option Disturbance × List Plan
  | [] => (none, [])
  | p :: rest =>
    if p.call = call ∧ p.isStanding then
      if 0 < p.skip then (none, { p with skip := p.skip - 1 } :: rest)
      else (some p.disturbance, { p with times := p.times - 1 } :: rest)
    else
      let (d, rest) := Plan.meet call rest
      (d, p :: rest)

end ComputePool
