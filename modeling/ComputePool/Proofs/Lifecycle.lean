import ComputePool.Proofs.Runs
import Mathlib.Data.List.Chain
import Mathlib.Tactic.DefEqTransformations

/-!
# The life of a task

As long as tasks are stored only when they are new, and changed only by updates, every stored task
has an orderly history (`Task.Orderly`): it begins as received, each status follows from the one
before by the table `TaskStatus.successors`, the current status is the last one, and the version
counts the changes.

What an event does to one task is told by `Event.onTask`: nothing, or it stores the task as a new
one, or it makes the move that is due. The rest is about these three cases: `Orderly.moved` is the
step, and `orderly_of_runs` the induction over a run. A task that completed or failed has no
move left, so it stays as it is (`task?_of_terminal`).

The dates of a history are those of the clock. They are in order as long as the clock does not go
back (`Task.Dated`, `dated_of_runs`).
-/

namespace ComputePool

namespace Instant

theorem le_refl (a : Instant) : a ≤ a := .inr ⟨rfl, Nat.le_refl _⟩

theorem le_trans {a b c : Instant} (hab : a ≤ b) (hbc : b ≤ c) : a ≤ c := by
  have hab : a.second < b.second ∨ a.second = b.second ∧ a.nano ≤ b.nano := hab
  have hbc : b.second < c.second ∨ b.second = c.second ∧ b.nano ≤ c.nano := hbc
  show a.second < c.second ∨ a.second = c.second ∧ a.nano ≤ c.nano
  omega

end Instant

namespace Task

/-- The statuses that the task had, oldest first. -/
def statuses (t : Task) : List TaskStatus := t.history.map (·.status)

/-- The dates of the history. -/
def dates (t : Task) : List Instant := t.history.map (·.date)

/-- The task is as it was received. -/
structure IsNew (t : Task) : Prop where
  version : t.version = 0
  status : t.status = .received
  history : ∃ date, t.history = [⟨.received, date⟩]

/-- The task is as it was received, and nothing was learnt of it. -/
structure IsUntouched (t : Task) : Prop extends t.IsNew where
  consensus : t.consensus = none
  uploader : t.uploader = none

/-- The task came to where it is by moves of the table, and all of them are on record. -/
structure Orderly (t : Task) : Prop where
  increasing : t.statuses.Pairwise (· < ·)
  starts : t.statuses.head? = some .received
  moves : t.statuses.IsChain fun a b => b ∈ a.successors
  current : t.statuses.getLast? = some t.status
  counted : t.version + 1 = t.history.length

/-- The dates of the history are in order, and none of them is still to come. -/
structure Dated (now : Instant) (t : Task) : Prop where
  sorted : t.dates.Pairwise (· ≤ ·)
  past : ∀ d ∈ t.dates, d ≤ now

section Fresh

variable {id : Uuid} {now : Instant} {dealId : String} {index : UInt32} {chainTaskId : String}
  {trust : UInt32} {maxExecutionTime : Span} {t : Task}

/-- A task is made from its deadlines, and refused only if it has none. -/
theorem fresh_cases :
    (deadlines? now maxExecutionTime = none ∧
      fresh id now dealId index chainTaskId trust maxExecutionTime =
        .error (.deadlineOutOfRange chainTaskId maxExecutionTime)) ∨
    ∃ contribution final, deadlines? now maxExecutionTime = some (contribution, final) ∧
      fresh id now dealId index chainTaskId trust maxExecutionTime = .ok {
        id, version := 0, chainTaskId, dealId, index
        status := .received
        history := [⟨.received, now⟩]
        trust, maxExecutionTime
        tee := false
        enclaveChallenge := ""
        contributionDeadline := contribution
        finalDeadline := final
        consensus := none
        consensusBlock := 0
        uploader := none
        resultLink := none } := by
  -- unfolded as a function: on its arguments Lean would try to compute the deadlines
  have hfresh := Eq.refl @fresh
  conv at hfresh =>
    rhs
    delta fresh
  rw [hfresh]
  beta_reduce
  generalize deadlines? now maxExecutionTime = d
  rcases d with _ | ⟨contribution, final⟩
  · exact .inl ⟨rfl, rfl⟩
  · exact .inr ⟨contribution, final, rfl, rfl⟩

/-- A task that was just made is untouched. -/
theorem isUntouched_of_fresh
    (h : fresh id now dealId index chainTaskId trust maxExecutionTime = .ok t) :
    t.IsUntouched := by
  obtain ⟨-, hfresh⟩ | ⟨contribution, final, -, hfresh⟩ := fresh_cases
  · exact absurd (h.symm.trans hfresh) (by simp)
  · obtain rfl := Except.ok.inj (h.symm.trans hfresh)
    exact ⟨⟨rfl, rfl, now, rfl⟩, rfl, rfl⟩

end Fresh

/-- A new task has one entry in its history, so nothing is out of order. -/
theorem IsNew.orderly {t : Task} (h : t.IsNew) : t.Orderly := by
  obtain ⟨date, hdate⟩ := h.history
  have hstatuses : t.statuses = [.received] := congrArg _ hdate
  refine ⟨?_, ?_, ?_, ?_, ?_⟩
  · rw [hstatuses]
    exact List.pairwise_singleton _ _
  · rw [hstatuses]
    rfl
  · rw [hstatuses]
    exact List.isChain_singleton _
  · rw [hstatuses, h.status]
    rfl
  · rw [hdate, h.version]
    rfl

/-- The one date of a new task is not to come. -/
theorem IsNew.dated {t : Task} (h : t.IsNew) {now : Instant} (hpast : ∀ d ∈ t.dates, d ≤ now) :
    t.Dated now := by
  obtain ⟨date, hdate⟩ := h.history
  refine ⟨?_, hpast⟩
  rw [show t.dates = [date] from congrArg _ hdate]
  exact List.pairwise_singleton _ _

/-- In an orderly history every status comes strictly before the current one, or is it. -/
theorem Orderly.le_status {t : Task} (h : t.Orderly) {s : TaskStatus} (hs : s ∈ t.statuses) :
    s ≤ t.status := by
  obtain ⟨before, hbefore⟩ := List.getLast?_eq_some_iff.1 h.current
  have hincreasing := h.increasing
  rw [hbefore] at hs hincreasing
  rcases List.mem_append.1 hs with hs | hs
  · exact Nat.le_of_lt
      ((List.pairwise_append.1 hincreasing).2.2 s hs t.status (List.mem_singleton_self _))
  · rw [List.mem_singleton.1 hs]
    exact Nat.le_refl _

/-- A move adds its status. -/
theorem statuses_moved (o : Outlook) (s : TaskStatus) (t : Task) :
    (o.moved s t).saved.statuses = t.statuses ++ [s] := by
  unfold statuses
  rw [show (o.moved s t).saved.history = t.history ++ [⟨s, o.now⟩] from
    Outlook.moved_history o s t, List.map_append]
  rfl

/-- A move that is due keeps the history orderly. -/
theorem Orderly.moved {t : Task} (h : t.Orderly) {o : Outlook} {s : TaskStatus}
    (hs : o.next t = some s) : (o.moved s t).saved.Orderly := by
  have hmem := o.next_mem_successors hs
  have hlt := TaskStatus.lt_of_mem_successors hmem
  have hhistory : (o.moved s t).saved.history = t.history ++ [⟨s, o.now⟩] :=
    Outlook.moved_history o s t
  have hstatuses := statuses_moved o s t
  refine ⟨?_, ?_, ?_, ?_, ?_⟩
  · rw [hstatuses]
    refine List.pairwise_append.2 ⟨h.increasing, List.pairwise_singleton _ _, ?_⟩
    intro a ha b hb
    rw [List.mem_singleton.1 hb]
    exact Nat.lt_of_le_of_lt (h.le_status ha) hlt
  · rw [hstatuses, List.head?_append, h.starts]
    rfl
  · rw [hstatuses]
    -- the one new pair is the move itself
    refine List.isChain_append.2 ⟨h.moves, List.isChain_singleton _, ?_⟩
    intro a ha b hb
    rw [h.current] at ha
    obtain rfl := Option.mem_some.1 ha
    obtain rfl := Option.mem_some.1 hb
    exact hmem
  · rw [hstatuses, List.getLast?_append]
    rfl
  · rw [hhistory, List.length_append, ← h.counted]
    show (o.moved s t).version + 1 + 1 = _
    rw [Outlook.moved_version]
    rfl

/-- A move at the present time keeps the dates in order. -/
theorem Dated.moved {t : Task} {o : Outlook} (h : t.Dated o.now) (s : TaskStatus) :
    (o.moved s t).saved.Dated o.now := by
  have hdates : (o.moved s t).saved.dates = t.dates ++ [o.now] := by
    unfold dates
    rw [show (o.moved s t).saved.history = t.history ++ [⟨s, o.now⟩] from
      Outlook.moved_history o s t, List.map_append]
    rfl
  refine ⟨?_, ?_⟩
  · rw [hdates]
    refine List.pairwise_append.2 ⟨h.sorted, List.pairwise_singleton _ _, ?_⟩
    intro a ha b hb
    rw [List.mem_singleton.1 hb]
    exact h.past a ha
  · intro d hd
    rw [hdates] at hd
    rcases List.mem_append.1 hd with hd | hd
    · exact h.past d hd
    · rw [List.mem_singleton.1 hd]
      exact Instant.le_refl _

/-- Time may pass. -/
theorem Dated.mono {t : Task} {now later : Instant} (h : t.Dated now) (hle : now ≤ later) :
    t.Dated later :=
  ⟨h.sorted, fun d hd => Instant.le_trans (h.past d hd) hle⟩

end Task

/-! ## Events -/

namespace Event

/-- The event stores no task but a new one, and changes none unless it is an update. -/
def Regular : Event → Prop
  | .step (.insertTask t) => t.IsNew
  | .step (.saveTask _) => False
  | _ => True

/-- An event that is no update and stores no task leaves the tasks alone. -/
theorem tasks_apply {e : Event} (h : ∀ s, e.steps s → ¬ s.WritesTasks) (p : Pool) :
    (e.apply p).store.tasks = p.store.tasks :=
  (e.leads p).keeps (P := fun q => q.store.tasks = p.store.tasks)
    (fun s hs q hq => (Step.tasks_apply (h s hs) q).trans hq) rfl

/-- What an event does to the task of an id. -/
inductive OnTask (e : Event) (p : Pool) (id : String) : Prop where
  | kept (same : (e.apply p).store.task? id = p.store.task? id)
  /-- The task is stored as a new one. -/
  | inserted (t : Task) (event : e = .step (.insertTask t)) (new : t.IsNew)
      (unknown : p.store.task? id = none) (after : (e.apply p).store.task? id = some t)
  /-- The task makes the move that is due. -/
  | moved (t : Task) (s : TaskStatus) (stored : p.store.task? id = some t)
      (due : (p.outlook id).next t = some s)
      (after : (e.apply p).store.task? id = some ((p.outlook id).moved s t).saved)
      (list : (e.apply p).store.list? id = (p.outlook id).listAfter s t)

/-- Every event does one of these to a task. -/
theorem onTask {e : Event} {p : Pool} (he : e.Regular) (hk : p.store.Keyed) (id : String) :
    e.OnTask p id := by
  have hupdate : ∀ i : String, (e.apply p).store = (p.update i).store → e.OnTask p id := by
    intro i hstore
    cases hdue : p.due? i with
    | none =>
      refine .kept ?_
      rw [hstore, Pool.update_of_not_due hk hdue]
    | some move =>
      obtain ⟨t, s⟩ := move
      obtain ⟨ht, hs⟩ := Pool.due?_eq_some.1 hdue
      obtain rfl := hk.task ht
      rw [Pool.update_of_due hk hdue] at hstore
      have htask := (congrArg (Store.task? id) hstore).trans (Pool.task?_advanced s ht id)
      have hlist := (congrArg (Store.list? id) hstore).trans (Pool.list?_advanced s ht id)
      by_cases hid : t.chainTaskId = id
      · subst hid
        exact .moved t s ht hs (htask.trans (if_pos rfl)) (hlist.trans (if_pos rfl))
      · exact .kept (htask.trans (if_neg hid))
  have hother : (∀ s, e.steps s → ¬ s.WritesTasks) → e.OnTask p id := by
    intro hsteps
    refine .kept ?_
    unfold Store.task?
    rw [tasks_apply hsteps]
  cases e with
  | step s =>
    cases s.onTask p id with
    | kept same => exact .kept same
    | stored t step of unknown after =>
      subst step
      exact .inserted t rfl he unknown after
    | saved t old step of before version after =>
      subst step
      exact he.elim
  | update i => exact hupdate i rfl
  | serve i => exact hupdate i (congrArg (·.store) (Pool.serve_eq hk i))
  | find lastBlock wallet => exact hother fun s hs => Step.Admits.not_writesTasks hs
  | recover block wallet => exact hother fun s hs => Step.Recovers.not_writesTasks hs
  | detect d => exact hother fun s hs => Step.Recovers.not_writesTasks hs.recovers

/-- The clock does not go back, and no task is stored with a date that is still to come. -/
structure Timely (p : Pool) (e : Event) : Prop where
  clock : p.now ≤ (e.apply p).now
  born : ∀ t, e = .step (.insertTask t) → ∀ d ∈ t.dates, d ≤ p.now

end Event

/-! ## Runs -/

namespace Pool

/-- The records lie under their ids, and all tasks are new. -/
structure OnlyNewTasks (p : Pool) : Prop where
  keyed : p.store.Keyed
  new : ∀ {id : String} {t : Task}, p.store.task? id = some t → t.IsNew

variable {start p q : Pool}

/-- At any time of a run the history of each task is orderly. -/
theorem orderly_of_runs (hrun : start.Runs (fun _ e => e.Regular) p)
    (hstart : start.OnlyNewTasks) {id : String} {t : Task} (ht : p.store.task? id = some t) :
    t.Orderly := by
  refine hrun.keeps_keyed
    (P := fun p => ∀ {id : String} {t : Task}, p.store.task? id = some t → t.Orderly) ?_
    hstart.keyed (fun ht => (hstart.new ht).orderly) ht
  intro p e hk he hp id t ht
  cases Event.onTask he hk id with
  | kept same => exact hp (same ▸ ht)
  | inserted t' event new unknown after =>
    obtain rfl := Option.some.inj (after.symm.trans ht)
    exact new.orderly
  | moved t' s stored due after list =>
    obtain rfl := Option.some.inj (after.symm.trans ht)
    exact (hp stored).moved due

/-- If the clock never goes back the dates of each task are in order at any time. -/
theorem dated_of_runs (hrun : start.Runs (fun q e => e.Regular ∧ e.Timely q) p)
    (hstart : start.OnlyNewTasks)
    (hborn : ∀ {id : String} {t : Task}, start.store.task? id = some t →
      ∀ d ∈ t.dates, d ≤ start.now)
    {id : String} {t : Task} (ht : p.store.task? id = some t) : t.Dated p.now := by
  refine hrun.keeps_keyed
    (P := fun p => ∀ {id : String} {t : Task}, p.store.task? id = some t → t.Dated p.now) ?_
    hstart.keyed (fun ht => (hstart.new ht).dated (hborn ht)) ht
  intro p e hk ⟨he, htimely⟩ hp id t ht
  -- the clock may have gone on since the last date was written
  refine Task.Dated.mono ?_ htimely.clock
  cases Event.onTask he hk id with
  | kept same => exact hp (same ▸ ht)
  | inserted t' event new unknown after =>
    obtain rfl := Option.some.inj (after.symm.trans ht)
    exact new.dated (htimely.born t' event)
  | moved t' s stored due after list =>
    obtain rfl := Option.some.inj (after.symm.trans ht)
    exact Task.Dated.moved (o := p.outlook id) (hp stored) s

/-- A task in a terminal status stays as it is. -/
theorem task?_of_terminal (hrun : p.Runs (fun _ e => e.Regular) q) (hk : p.store.Keyed)
    {id : String} {t : Task} (ht : p.store.task? id = some t) (hend : t.status.isTerminal = true) :
    q.store.task? id = some t := by
  refine hrun.keeps_keyed (P := fun q => q.store.task? id = some t) ?_ hk ht
  intro p e hk he hp
  cases Event.onTask he hk id with
  | kept same => exact same.trans hp
  | inserted t' event new unknown after => exact absurd (unknown.symm.trans hp) (by simp)
  | moved t' s stored due after list =>
    -- no move is due of a task that is over
    obtain rfl := Option.some.inj (stored.symm.trans hp)
    rw [Outlook.next_of_isTerminal _ hend] at due
    exact absurd due (by simp)

/-- The life of a task, over a whole run: its history is orderly at all times, the dates in it are
in order if the clock never goes back, and once it completed or failed it stays as it is. -/
theorem task_lifecycle (hstart : start.OnlyNewTasks)
    (hrun : start.Runs (fun _ e => e.Regular) p) :
    (∀ id t, p.store.task? id = some t → t.Orderly) ∧
    (start.Runs (fun q e => e.Regular ∧ e.Timely q) p →
      (∀ id t, start.store.task? id = some t → ∀ d ∈ t.dates, d ≤ start.now) →
      ∀ id t, p.store.task? id = some t → t.dates.Pairwise (· ≤ ·)) ∧
    ∀ q id t, p.Runs (fun _ e => e.Regular) q → p.store.task? id = some t →
      t.status.isTerminal = true → q.store.task? id = some t := by
  refine ⟨fun id t ht => orderly_of_runs hrun hstart ht, ?_, ?_⟩
  · intro htimely hborn id t ht
    exact (dated_of_runs htimely hstart (fun ht => hborn _ _ ht) ht).sorted
  · intro q id t hq ht hend
    exact task?_of_terminal hq (hrun.keyed hstart.keyed) ht hend

/-- A task is stored, the chain knows it, and two updates initialize it. -/
theorem task_lifecycle_initialized : ∃ p t, blank.Runs (fun q e => e.Regular ∧ e.Timely q) p ∧
    p.store.task? "0x1" = some t ∧ t.statuses = [.received, .initializing, .initialized] ∧
    t.Orderly ∧ t.dates.Pairwise (· ≤ ·) := by
  have hnew : (Task.plain "0x1").IsNew := ⟨rfl, rfl, .epoch, rfl⟩
  have hblank : blank.OnlyNewTasks := ⟨isNew_blank.wellKept.keyed, fun ht => nomatch ht⟩
  have hempty : blank.Runs (fun q e => e.Regular ∧ e.Timely q) blank := .refl
  have hborn : ∀ t, Event.step (.insertTask (.plain "0x1")) = .step (.insertTask t) →
      ∀ d ∈ t.dates, d ≤ Instant.epoch := by
    intro t ht
    obtain rfl := Step.insertTask.inj (Event.step.inj ht)
    decide
  have hinsert := hempty.snoc (.step (.insertTask (.plain "0x1"))) ⟨hnew, by decide, hborn⟩
  have hchain := hinsert.snoc (.step (.changeChain (·.setTask (.plain "0x1"))))
    ⟨trivial, by decide, fun t ht => nomatch ht⟩
  have hfirst := hchain.snoc (.update "0x1") ⟨trivial, by decide, fun t ht => nomatch ht⟩
  have hrun := hfirst.snoc (.update "0x1") ⟨trivial, by decide, fun t ht => nomatch ht⟩
  obtain ⟨horderly, hdates, -⟩ := task_lifecycle hblank (hrun.mono fun _ _ he => he.1)
  refine ⟨_, _, hrun, rfl, by decide, horderly "0x1" _ rfl, ?_⟩
  exact hdates hrun (fun id t ht => nomatch ht) "0x1" _ rfl

end Pool

end ComputePool
