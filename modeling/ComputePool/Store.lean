import ComputePool.Replicate.List
import ComputePool.Table
import ComputePool.Task.Basic

/-!
# The store

The tasks and replicate lists of the pool. Writes are optimistic: a write names the version that
its caller read, and fails with a conflict, changing nothing, if the record changed since.
-/

namespace ComputePool

/-- Tasks and replicate lists by chain task id. -/
structure Store where
  tasks : Table String Task
  lists : Table String ReplicateList

/-- The task is to be handed out before the other: it is further on, or as far and due earlier. -/
def Task.precedes (a b : Task) : Bool :=
  b.status < a.status || a.status == b.status && a.contributionDeadline < b.contributionDeadline

/-- The first task of a list that none of the others precedes. -/
def Task.best? : List Task → Option Task
  | [] => none
  | t :: rest =>
    match Task.best? rest with
    | none => some t
    | some u => if u.precedes t then some u else some t

namespace Store

/-- A store without records. -/
def empty : Store := ⟨.empty, .empty⟩

/-! ## Tasks -/

/-- Stores a new task. -/
def insertTask (t : Task) (s : Store) : Except StoreError Store :=
  if s.tasks.contains t.chainTaskId then .error (.duplicate "task" t.chainTaskId)
  else .ok { s with tasks := s.tasks.insert t.chainTaskId t }

/-- The task of an id. -/
def task? (id : String) (s : Store) : Option Task := s.tasks.find? id

/-- The tasks of these ids; unknown ones are left out. -/
def tasksOf (ids : List String) (s : Store) : List Task := ids.filterMap fun id => s.task? id

/-- The tasks in one of the statuses. -/
def tasksIn (statuses : List TaskStatus) (s : Store) : List Task :=
  s.tasks.values.filter fun t => statuses.contains t.status

/-- The tasks that may take in workers, without those that need an enclave if `excludeTee`, and
without the excluded ones. -/
def openTasks (excludeTee : Bool) (excluded : List String) (s : Store) : List Task :=
  s.tasks.values.filter fun t =>
    t.status.isOpen && !(excludeTee && t.tee) && !excluded.contains t.chainTaskId

/-- The open task to be handed out first. -/
def bestOpenTask? (excludeTee : Bool) (excluded : List String) (s : Store) : Option Task :=
  Task.best? (s.openTasks excludeTee excluded)

/-- Saves a changed task; the saved task has the next version. -/
def saveTask (t : Task) (s : Store) : Except StoreError (Task × Store) :=
  match s.task? t.chainTaskId with
  | none => .error (.notFound "task" t.chainTaskId)
  | some stored =>
    if stored.version = t.version then
      let saved := { t with version := t.version + 1 }
      .ok (saved, { s with tasks := s.tasks.insert t.chainTaskId saved })
    else .error (.conflict "task" t.chainTaskId t.version stored.version)

/-! ## Replicate lists -/

/-- The replicate list of a task. -/
def list? (id : String) (s : Store) : Option ReplicateList := s.lists.find? id

/-- The replicate of a wallet for a task. -/
def replicate? (id wallet : String) (s : Store) : Option Replicate :=
  (s.list? id).bind (·.find? wallet)

/-- Sets the list of a task. -/
def setList (id : String) (l : ReplicateList) (s : Store) : Store :=
  { s with lists := s.lists.insert id l }

/-- Creates the empty list of a task. -/
def createList (id : String) (s : Store) : Except StoreError (ReplicateList × Store) :=
  if s.lists.contains id then .error (.duplicate "replicates_list" id)
  else .ok (.empty id, s.setList id (.empty id))

/-- Adds a fresh replicate of a wallet to the list that the caller read. -/
def addReplicate (now : Instant) (read : ReplicateList) (wallet : String) (s : Store) :
    Except StoreError (ReplicateList × Store) :=
  let id := read.chainTaskId
  match s.list? id with
  | none => .error (.notFound "replicates_list" id)
  | some stored =>
    if stored.version = read.version then
      if stored.hasWorker wallet then .error (.duplicate "replicate" (id ++ "/" ++ wallet))
      else
        let changed := { stored with
          version := stored.version + 1
          replicates := stored.replicates ++ [.fresh now wallet id] }
        .ok (changed, s.setList id changed)
    else .error (.conflict "replicates_list" id read.version stored.version)

/-- Appends a status update to a replicate; `none` if there is no such replicate. -/
def updateReplicate (id wallet : String) (u : StatusUpdate) (s : Store) :
    Option Replicate × Store :=
  match s.list? id with
  | none => (none, s)
  | some l =>
    match l.find? wallet with
    | none => (none, s)
    | some r =>
      (some (r.updateStatus u),
        s.setList id { l.updateWorker wallet u with version := l.version + 1 })

/-- Removes the replicates of a wallet, and tells whether there were any. -/
def removeReplicate (id wallet : String) (s : Store) : Bool × Store :=
  match s.list? id with
  | none => (false, s)
  | some l =>
    if l.hasWorker wallet then
      (true, s.setList id { l with
        version := l.version + 1
        replicates := l.replicates.filter (·.wallet != wallet) })
    else (false, s)

end Store

end ComputePool
