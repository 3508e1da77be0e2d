import ComputePool.Admission
import ComputePool.Proofs.Execution

/-!
# Services call by call

On a plain pool a service runs from its first call to its last, and nothing comes in between. A
`Process` is the same service taken one call at a time: what a call does to the pool, and how the
service goes on after it, both depend on the pool in which the call is made, and that need not be
the one that the call before left. So anything may happen between two calls.

Services are written for any monad with the calls of `Collaborators`; the instance here makes each
of them a single call with its plain meaning. The number of rounds of a scan is the exception. It
is no call of the program, it only says that the scan ends, and tasks may be added while the scan
is on its way; so a process takes any number for it (`Process.choose`), and what is shown of the
process holds however long the scan goes on.

A process that is not disturbed does what the service does on a plain pool (`Process.run`).
-/

namespace ComputePool

/-- A service that is interrupted after each of its calls. -/
inductive Process (α : Type) : Type where
  | done (a : α)
  /-- A number that may be any number, and how the service goes on with it. -/
  | choose (next : Nat → Process α)
  /-- A call: what it does to the pool in which it is made, and how the service goes on. -/
  | call (after : Pool → Pool) (next : Pool → Process α)

namespace Process

variable {α β : Type}

/-- Goes on with what the first process gives. -/
def bind : Process α → (α → Process β) → Process β
  | done a, f => f a
  | choose next, f => choose fun n => (next n).bind f
  | call after next, f => call after fun p => (next p).bind f

instance : Monad Process where
  pure := done
  bind := bind

/-- A single call. -/
def ofCall (x : StateM Pool α) : Process α :=
  .call (fun p => (p.perform x).2) fun p => .done (p.perform x).1

instance : Collaborators Process where
  now := ofCall Collaborators.now
  getTask id := ofCall (Collaborators.getTask id)
  getTasks ids := ofCall (Collaborators.getTasks ids)
  findTasks statuses := ofCall (Collaborators.findTasks statuses)
  bestOpenTask excludeTee excluded := ofCall (Collaborators.bestOpenTask excludeTee excluded)
  saveTask t := ofCall (Collaborators.saveTask t)
  scanBound := .choose .done
  createList id := ofCall (Collaborators.createList id)
  getList id := ofCall (Collaborators.getList id)
  getReplicate id wallet := ofCall (Collaborators.getReplicate id wallet)
  addReplicate read wallet := ofCall (Collaborators.addReplicate read wallet)
  updateReplicate id wallet u := ofCall (Collaborators.updateReplicate id wallet u)
  removeReplicate id wallet := ofCall (Collaborators.removeReplicate id wallet)
  getWorker wallet := ofCall (Collaborators.getWorker wallet)
  canAcceptMoreWork wallet := ofCall (Collaborators.canAcceptMoreWork wallet)
  isAllowedToJoin wallet := ofCall (Collaborators.isAllowedToJoin wallet)
  hasEnoughGas wallet := ofCall (Collaborators.hasEnoughGas wallet)
  removeWorker wallet := ofCall (Collaborators.removeWorker wallet)
  addWork wallet id := ofCall (Collaborators.addWork wallet id)
  endWork wallet id := ofCall (Collaborators.endWork wallet id)
  workIds wallet := ofCall (Collaborators.workIds wallet)
  getChainTask id := ofCall (Collaborators.getChainTask id)
  getContribution id wallet := ofCall (Collaborators.getContribution id wallet)
  isResultUploaded id := ofCall (Collaborators.isResultUploaded id)
  authorize wallet id enclaveChallenge :=
    ofCall (Collaborators.authorize wallet id enclaveChallenge)
  tryLock id := ofCall (Collaborators.tryLock id)
  unlock t := ofCall (Collaborators.unlock t)
  isQueued id := ofCall (Collaborators.isQueued id)
  offer t := ofCall (Collaborators.offer t)
  draw n := ofCall (Collaborators.draw n)
  maxAttempts := ofCall Collaborators.maxAttempts

/-! ## Without disturbance -/

/-- All calls one after the other, with nothing in between. As no task is added meanwhile, a scan
needs no more rounds than there are tasks. -/
def run : Process α → StateM Pool α
  | done a => pure a
  | choose next => fun p => (next (p.store.tasks.size + 1)).run p
  | call after next => fun p => (next p).run (after p)

/-- One process after another makes the calls of both. -/
theorem run_bind (x : Process α) (f : α → Process β) :
    (x >>= f).run = x.run >>= fun a => (f a).run := by
  induction x with
  | done a => rfl
  | choose next ih =>
    funext p
    exact congrFun (ih (p.store.tasks.size + 1)) p
  | call after next ih =>
    funext p
    exact congrFun (ih p) (after p)

/-- A choice between processes may be made before the run. -/
theorem run_ite (c : Prop) [Decidable c] (x y : Process α) :
    (if c then x else y).run = if c then x.run else y.run := by
  split <;> rfl

/-- The plain sequence of calls of a process that may fail. -/
def plain (x : Fallible Process α) : Fallible (StateM Pool) α := ExceptT.mk (run (ExceptT.run x))

/-- The plain sequence of a sequence of two parts is made of their plain sequences. -/
theorem plain_bind (x : Fallible Process α) (f : α → Fallible Process β) :
    plain (x >>= f) = plain x >>= fun a => plain (f a) := by
  show ExceptT.mk (run (ExceptT.run x >>= ExceptT.bindCont f)) = _
  rw [run_bind]
  show _ = ExceptT.mk (run (ExceptT.run x) >>= ExceptT.bindCont fun a => plain (f a))
  congr 2
  funext r
  cases r with
  | ok a => rfl
  | error e => rfl

/-- A choice between sequences may be made before the run. -/
theorem plain_ite (c : Prop) [Decidable c] (x y : Fallible Process α) :
    plain (if c then x else y) = if c then plain x else plain y := by
  split <;> rfl

/-- A process of which a sequence takes all outcomes is run as a whole. -/
theorem plain_certain (x : Process α) : plain (certain x) = certain x.run := by
  show ExceptT.mk (run (x >>= fun a => pure (.ok a))) = _
  rw [run_bind]
  rfl

theorem run_isConsensusReached (l : ReplicateList) :
    run (isConsensusReached l) = isConsensusReached l := by
  unfold isConsensusReached
  rw [run_bind]
  congr 1
  funext r
  split <;> rfl

theorem plain_enrol (t : Task) (wallet : String) (l : ReplicateList) :
    plain (enrol t wallet l) = enrol t wallet l := by
  unfold enrol
  rw [plain_bind]
  congr 1
  funext r
  split
  · rfl
  · rfl
  · rw [plain_bind]
    congr 1
    funext r
    split <;> rfl

theorem plain_decideLocked (t : Task) (wallet : String) :
    plain (decideLocked t wallet) = decideLocked t wallet := by
  unfold decideLocked
  rw [plain_bind]
  congr 1
  funext l
  cases l with
  | none => rfl
  | some l =>
    dsimp only
    rw [plain_ite, plain_bind, plain_certain, run_isConsensusReached]
    congr 2
    funext reached
    rw [plain_ite, plain_enrol]
    rfl

/-- An attempt to admit a worker is the plain one. -/
theorem plain_acceptOrReject (t : Task) (wallet : String) :
    plain (acceptOrReject t wallet) = acceptOrReject t wallet := by
  unfold acceptOrReject
  rw [plain_bind]
  congr 1
  funext allowed
  rw [plain_ite, plain_ite, plain_bind, plain_bind]
  congr 3
  funext l
  cases l with
  | none => rfl
  | some l =>
    dsimp only
    rw [plain_ite, plain_bind]
    congr 2
    funext ticket
    cases ticket with
    | none => rfl
    | some ticket =>
      dsimp only
      rw [plain_bind, plain_certain]
      show certain (plain (decideLocked t wallet)).run >>= _ = _
      rw [plain_decideLocked]
      congr 1

/-- Repeated attempts are the plain ones, by induction on how many are left. -/
theorem run_admitRepeatedly (t : Task) (wallet : String) (attempts : Nat) :
    run (admitRepeatedly t wallet attempts) = admitRepeatedly t wallet attempts := by
  induction attempts with
  | zero => rfl
  | succ attempts ih =>
    unfold admitRepeatedly
    rw [run_bind]
    show (plain (acceptOrReject t wallet)).run >>= _ = _
    rw [plain_acceptOrReject]
    congr 1
    funext r
    cases r with
    | ok accepted => rfl
    | error e =>
      dsimp only
      rw [run_ite, ih]
      rfl

/-- A scan of the open tasks is the plain one, by induction on the rounds that are left. -/
theorem plain_scan (w : Worker) (wallet : String) (attempts rounds : Nat)
    (scanned : List String) :
    plain (scan w wallet attempts rounds scanned) = scan w wallet attempts rounds scanned := by
  induction rounds generalizing scanned with
  | zero => rfl
  | succ rounds ih =>
    unfold scan
    rw [plain_bind]
    congr 1
    funext t
    cases t with
    | none => rfl
    | some t =>
      dsimp only
      rw [plain_bind, plain_certain, run_admitRepeatedly]
      congr 1
      funext accepted
      rw [plain_ite, ih]
      rfl

/-- A request for work that is not disturbed is the plain one. -/
theorem plain_findAuthorization (lastBlock : UInt64) (wallet : String) :
    plain (findAuthorization lastBlock wallet) = findAuthorization lastBlock wallet := by
  unfold findAuthorization
  rw [plain_bind]
  congr 1
  funext accepts
  rw [plain_ite, plain_ite, plain_bind]
  congr 3
  funext enough
  rw [plain_ite, plain_bind]
  congr 2
  funext w
  cases w with
  | none => rfl
  | some w =>
    dsimp only
    rw [plain_bind]
    congr 1
    funext attempts
    rw [plain_bind]
    congr 1
    funext rounds
    exact plain_scan w wallet attempts rounds []

end Process

end ComputePool
