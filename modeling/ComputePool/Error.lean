import ComputePool.Time.Span

/-!
# Errors

What can go wrong, family by family, each cause with its name and its wording. `PoolError` joins
the families; its names and messages say the family first.
-/

namespace ComputePool

/-- Causes for which the records of the pool refuse an operation. -/
inductive StoreError where
  | notFound (entity id : String)
  /-- The record changed between reading and writing it. -/
  | conflict (entity id : String) (expected found : Nat)
  | duplicate (entity id : String)
  | backend (reason : String)
deriving DecidableEq, Repr

/-- Causes for which the chain cannot be read. -/
inductive ChainError where
  | rpc (method reason : String)
  | unavailable (reason : String)
deriving DecidableEq, Repr

/-- Faults in what is known about a replicate. -/
inductive ReplicateError where
  | multipleOccurrences (field : String)
  | unknownStatus (name : String)
deriving DecidableEq, Repr

/-- Causes for which a task cannot be made. -/
inductive TaskError where
  | deadlineOutOfRange (chainTaskId : String) (maxExecutionTime : Span)
deriving DecidableEq, Repr

/-- Causes for which settings are refused. -/
inductive SettingsError where
  | invalidValue (key reason : String)
deriving DecidableEq, Repr

/-- Faults of the queue of update requests. -/
inductive QueueError where
  /-- Someone failed while changing the queue, so its content is suspect. -/
  | poisoned
deriving DecidableEq, Repr

/-- Any error of the pool. -/
inductive PoolError where
  | settings (e : SettingsError)
  | store (e : StoreError)
  | chain (e : ChainError)
  | replicate (e : ReplicateError)
  | task (e : TaskError)
  | queue (e : QueueError)
deriving DecidableEq, Repr

/-- The operation may succeed once the record is read again. -/
def StoreError.isConflict : StoreError → Bool
  | .conflict .. => true
  | _ => false

/-- The error is a conflicting write. -/
def PoolError.isConflict : PoolError → Bool
  | .store e => e.isConflict
  | _ => false

/-! ## Names -/

/-- The name of a store error. -/
def StoreError.name : StoreError → String
  | .notFound .. => "NotFound"
  | .conflict .. => "Conflict"
  | .duplicate .. => "Duplicate"
  | .backend _ => "Backend"

/-- The name of a chain error. -/
def ChainError.name : ChainError → String
  | .rpc .. => "Rpc"
  | .unavailable _ => "Unavailable"

/-- The name of a replicate error. -/
def ReplicateError.name : ReplicateError → String
  | .multipleOccurrences _ => "MultipleOccurrences"
  | .unknownStatus _ => "UnknownStatus"

/-- The name of a task error. -/
def TaskError.name : TaskError → String
  | .deadlineOutOfRange .. => "DeadlineOutOfRange"

/-- The name of a settings error. -/
def SettingsError.name : SettingsError → String
  | .invalidValue .. => "InvalidValue"

/-- The name of a queue error. -/
def QueueError.name : QueueError → String
  | .poisoned => "Poisoned"

/-- The name of an error, after that of its family. -/
def PoolError.name : PoolError → String
  | .settings e => "Config." ++ e.name
  | .store e => "Store." ++ e.name
  | .chain e => "Chain." ++ e.name
  | .replicate e => "Replicate." ++ e.name
  | .task e => "Task." ++ e.name
  | .queue e => "Queue." ++ e.name

/-! ## Wording -/

/-- The text of a store error. -/
def StoreError.message : StoreError → String
  | .notFound entity id => "Entity not found: " ++ entity ++ " with id " ++ id
  | .conflict entity id expected found =>
    "Conflicting write on " ++ entity ++ " " ++ id ++ ": expected version " ++ expected.repr ++
      ", found " ++ found.repr
  | .duplicate entity id => "Duplicate " ++ entity ++ ": " ++ id
  | .backend reason => "Store backend failure: " ++ reason

/-- The text of a chain error. -/
def ChainError.message : ChainError → String
  | .rpc method reason => "RPC call " ++ method ++ " failed: " ++ reason
  | .unavailable reason => "Chain node unavailable: " ++ reason

/-- The text of a replicate error. -/
def ReplicateError.message : ReplicateError → String
  | .multipleOccurrences field =>
    "Multiple occurrences of field " ++ field ++ " across status history"
  | .unknownStatus name => "Unknown replicate status: " ++ name

/-- The text of a task error. -/
def TaskError.message : TaskError → String
  | .deadlineOutOfRange id d =>
    "Deadlines of task " ++ id ++ " overflow for max execution time " ++ d.text

/-- The text of a settings error. -/
def SettingsError.message : SettingsError → String
  | .invalidValue key reason => "Invalid configuration value for " ++ key ++ ": " ++ reason

/-- The text of a queue error. -/
def QueueError.message : QueueError → String
  | .poisoned => "Update queue lock poisoned"

/-- The text of an error, after the name of its family. -/
def PoolError.message : PoolError → String
  | .settings e => "Configuration error: " ++ e.message
  | .store e => "Store error: " ++ e.message
  | .chain e => "Chain error: " ++ e.message
  | .replicate e => "Replicate error: " ++ e.message
  | .task e => "Task error: " ++ e.message
  | .queue e => "Queue error: " ++ e.message

end ComputePool
