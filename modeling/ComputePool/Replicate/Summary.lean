import ComputePool.Replicate.Basic

/-!
# Replicate summaries

A replicate together with the exit code and the enclave session error that its history reports.
Each may be reported once; a second report of either is an error that names the field.
-/

namespace ComputePool

/-- What the updates of a history report once at most. -/
structure Reports where
  exitCode : Option Int32
  teeError : Option String
deriving DecidableEq

namespace Reports

/-- Nothing reported yet. -/
def none : Reports := ⟨.none, .none⟩

/-- Keeps a report, unless there is one already. -/
def once {α : Type} (field : String) (kept reported : Option α) :
    Except ReplicateError (Option α) :=
  match reported, kept with
  | .none, _ => .ok kept
  | .some _, .some _ => .error (.multipleOccurrences field)
  | .some a, .none => .ok (.some a)

/-- Adds what the details of one update report, the exit code first. -/
def add (reports : Reports) (d : Details) : Except ReplicateError Reports := do
  let exitCode ← once "exitCode" reports.exitCode d.exitCode
  let teeError ← once "teeSessionGenerationError" reports.teeError d.teeError
  return ⟨exitCode, teeError⟩

/-- What the updates report, oldest first. -/
def ofHistory (history : List StatusUpdate) : Except ReplicateError Reports :=
  (history.filterMap (·.details)).foldlM add none

end Reports

/-- A replicate and its reports. -/
structure Summary where
  replicate : Replicate
  reports : Reports
deriving DecidableEq

/-- The summary of a replicate. -/
def Replicate.summary (r : Replicate) : Except ReplicateError Summary := do
  return ⟨r, ← Reports.ofHistory r.history⟩

/-- A summary is written as the record of the replicate with the reports as further fields. -/
def Summary.encode (s : Summary) : Json :=
  let reports := Json.optionalField "app_exit_code" s.reports.exitCode ++
    Json.optionalField "tee_session_generation_error" s.reports.teeError
  match Persistent.encode s.replicate with
  | .obj fields => .obj (fields ++ reports)
  | v => v

end ComputePool
