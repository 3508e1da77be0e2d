import ComputePool.Proofs.AllOrNothing
import ComputePool.Proofs.Slots

/-!
# Admission on an old copy of a task

An attempt to admit a worker works with a copy of the task that was read while the task was open,
and before its lock was taken. Under the lock the list of the task is read again, and the task is
not. So the attempt does not see that the task was updated meanwhile: what it asks for is
`Pool.Accepts`, which reads no status, and a task that is open no more takes in a worker like any
other (`Pool.late_admission`).

A task that is over when the worker is admitted into it has freed its workers before, and does so no
more. The slot of the latecomer is held as long as the record of the task stays as it is, which is
for good if it completed or failed (`Pool.holdsSlot_of_runs`).
-/

namespace ComputePool

namespace Pool

variable {p₀ p q : Pool} {t : Task} {id wallet : String}

/-- The worker holds a computing slot for the task. -/
def HoldsSlot (id wallet : String) (p : Pool) : Prop :=
  ∃ w, p.registry.worker? wallet = some w ∧ id ∈ w.computing

/-! ## How long a slot is held -/

theorem HoldsSlot.of_registry (h : p.HoldsSlot id wallet) (hsame : q.registry = p.registry) :
    q.HoldsSlot id wallet := by
  unfold HoldsSlot
  rw [hsame]
  exact h

/-- An update of another task frees no slot for this one. -/
theorem HoldsSlot.advanced (h : p.HoldsSlot id wallet) {s : TaskStatus}
    (ht : p.store.task? t.chainTaskId = some t) (hother : t.chainTaskId ≠ id) :
    (p.advanced s t).HoldsSlot id wallet := by
  obtain ⟨w, hw, hin⟩ := h
  have hafter := worker?_advanced s ht wallet
  rw [hw] at hafter
  split at hafter
  · exact ⟨_, hafter, Worker.mem_computing_releaseTask.2 ⟨hin, hother.symm⟩⟩
  · exact ⟨w, hafter, hin⟩

/-- A slot for a task is freed by a move of that task alone. -/
theorem HoldsSlot.update (h : p.HoldsSlot id wallet) (hk : p.store.Keyed) (i : String)
    (hsame : (p.update i).store.task? id = p.store.task? id) :
    (p.update i).HoldsSlot id wallet := by
  cases hdue : p.due? i with
  | none =>
    rw [update_of_not_due hk hdue]
    exact h
  | some move =>
    obtain ⟨t, s⟩ := move
    obtain ⟨ht, -⟩ := due?_eq_some.1 hdue
    obtain rfl := hk.task ht
    rw [update_of_due hk hdue] at hsame ⊢
    refine h.advanced ht ?_
    rintro rfl
    -- a move counts in the version
    rw [task?_advanced s ht, if_pos rfl, ht] at hsame
    have hversion : _ + 1 = t.version := congrArg (·.version) (Option.some.inj hsame)
    rw [Outlook.moved_version] at hversion
    exact absurd hversion (Nat.succ_ne_self _)

/-- Who asks for work frees no slot of a worker that may join. -/
theorem HoldsSlot.find (h : p.HoldsSlot id wallet) (hk : p.store.Keyed)
    (hallowed : p.registry.isAllowed wallet = true) (lastBlock : UInt64) (other : String) :
    (p.attempt (findAuthorization lastBlock other)).2.HoldsSlot id wallet := by
  obtain ⟨w, hw, hin⟩ := h
  cases Pool.found hk lastBlock other with
  | nothing same =>
    rw [same]
    exact ⟨w, hw, hin⟩
  | removed banned pool =>
    have hother : other ≠ wallet := by
      rintro rfl
      exact absurd (hallowed.symm.trans banned) (by simp)
    rw [pool]
    exact ⟨w, (Registry.worker?_remove ..).trans ((if_neg hother).trans hw), hin⟩
  | enrolled t welcome free stored isOpen enrolled =>
    have hafter := Registry.worker?_addTask enrolled.registry wallet
    rw [hw] at hafter
    split at hafter
    · exact ⟨_, hafter, Worker.mem_addOnce.2 (.inl hin)⟩
    · exact ⟨w, hafter, hin⟩

/-- A step that workers are registered by, or that leaves the registry, frees no slot. -/
theorem HoldsSlot.step (h : p.HoldsSlot id wallet) {s : Step} (hs : (Event.step s).Booked p) :
    (s.apply p).HoldsSlot id wallet := by
  obtain ⟨w, hw, hin⟩ := h
  cases s.onWorker p wallet with
  | kept same => exact ⟨w, same.trans hw, hin⟩
  | registered w' step own after =>
    subst step
    obtain ⟨hunknown, -⟩ := hs
    rw [own, hw] at hunknown
    exact absurd hunknown (by simp)
  | removed step after =>
    subst step
    exact hs.elim
  | admitted i step after =>
    subst step
    exact hs.elim
  | released i step after =>
    subst step
    exact hs.elim

/-- The task stays as it is, or its version grows. -/
theorem exists_task?_event {e : Event} (he : e.Regular) (hk : p.store.Keyed)
    (ht : p.store.task? id = some t) :
    ∃ u, (e.apply p).store.task? id = some u ∧ (u = t ∨ t.version < u.version) := by
  cases Event.onTask he hk id with
  | kept same => exact ⟨t, same.trans ht, .inl rfl⟩
  | inserted u event new unknown after => exact absurd (unknown.symm.trans ht) (by simp)
  | moved u s stored due after list =>
    obtain rfl := Option.some.inj (stored.symm.trans ht)
    refine ⟨_, after, .inr ?_⟩
    exact Nat.lt_succ_of_le (Nat.le_of_eq (Outlook.moved_version _ s u).symm)

/-- Every booked event leaves the slot, unless it moves the task. -/
theorem HoldsSlot.event (h : p.HoldsSlot id wallet) (hk : p.store.Keyed)
    (hallowed : p.registry.isAllowed wallet = true) {e : Event} (he : e.Booked p)
    (hsame : (e.apply p).store.task? id = p.store.task? id) :
    (e.apply p).HoldsSlot id wallet := by
  have hregistry (hsteps : ∀ s, e.steps s → s.part ≠ .registry) :
      (e.apply p).HoldsSlot id wallet :=
    h.of_registry ((e.leads p).unchanged (f := (·.registry)) fun s hs q =>
      Step.registry_apply q (hsteps s hs))
  cases e with
  | step s => exact h.step he
  | update i => exact h.update hk i hsame
  | serve i =>
    have hserve := serve_eq hk i
    have hsame := (congrArg (·.store.task? id) hserve).symm.trans hsame
    exact (h.update hk i hsame).of_registry (congrArg (·.registry) hserve)
  | find lastBlock other => exact h.find hk hallowed lastBlock other
  | recover block other => exact hregistry fun s hs => Step.Recovers.part_ne_registry hs
  | detect d => exact hregistry fun s hs => (Step.Publishes.recovers hs).part_ne_registry

/-- Over a run a slot is held as long as the record of the task stays as it is. -/
theorem holdsSlot_of_runs (hrun : p.Runs (fun r e => e.Booked r) q) (hk : p.store.Keyed)
    (hallowed : p.registry.isAllowed wallet = true) (h : p.HoldsSlot id wallet)
    (ht : p.store.task? id = some t) (hsame : q.store.task? id = some t) :
    q.HoldsSlot id wallet := by
  -- the record stays as it is, or its version leaves this one behind for good
  have hkept : q.registry.isAllowed wallet = true ∧
      (q.HoldsSlot id wallet ∧ q.store.task? id = some t ∨
        ∃ u, q.store.task? id = some u ∧ t.version < u.version) := by
    refine hrun.keeps_keyed (P := fun q => q.registry.isAllowed wallet = true ∧
      (q.HoldsSlot id wallet ∧ q.store.task? id = some t ∨
        ∃ u, q.store.task? id = some u ∧ t.version < u.version)) ?_ hk
      ⟨hallowed, .inl ⟨h, ht⟩⟩
    rintro r e hk he ⟨hallowed, hr⟩
    refine ⟨((e.leads r).isAllowed wallet).trans hallowed, ?_⟩
    rcases hr with ⟨hheld, hr⟩ | ⟨u, hu, hlt⟩
    · obtain ⟨u, hu, rfl | hlt⟩ := exists_task?_event he.regular hk hr
      · exact .inl ⟨hheld.event hk hallowed he (hu.trans hr.symm), hu⟩
      · exact .inr ⟨u, hu, hlt⟩
    · obtain ⟨v, hv, rfl | hlt'⟩ := exists_task?_event he.regular hk hu
      · exact .inr ⟨v, hv, hlt⟩
      · exact .inr ⟨v, hv, Nat.lt_trans hlt hlt'⟩
  rcases hkept.2 with ⟨hheld, -⟩ | ⟨u, hu, hlt⟩
  · exact hheld
  · obtain rfl := Option.some.inj (hu.symm.trans hsame)
    exact absurd hlt (Nat.lt_irrefl _)

/-! ## The attempt -/

/-- The task is stored, and open. -/
structure Offered (p : Pool) (id : String) (t : Task) : Prop where
  stored : p.store.task? id = some t
  isOpen : t.status = .initialized ∨ t.status = .running

/-- All that an attempt to admit a worker asks for, with this copy of the task. -/
structure Accepts (p : Pool) (t : Task) (wallet : String) : Prop where
  allowed : p.registry.isAllowed wallet = true
  known : ∃ w, p.registry.worker? wallet = some w
  challenge : t.enclaveChallenge ≠ ""
  unlocked : p.locks.isHeld t.chainTaskId = false
  place : ∃ l, p.HasPlace wallet t l

/-- An attempt accepts the worker just where it is welcome and the task takes it. -/
theorem Attempted.accepts_iff {r : Except PoolError Bool} (h : p.Attempted t wallet r q) :
    r = .ok true ↔ p.Accepts t wallet := by
  cases h with
  | banned banned =>
    refine iff_of_false (by simp) fun haccepts => ?_
    exact absurd (haccepts.allowed.symm.trans banned) (by simp)
  | refused refuses same =>
    refine iff_of_false (by simp) fun haccepts => ?_
    have htakes := takes_iff.2 ⟨haccepts.challenge, haccepts.unlocked, haccepts.place⟩
    exact absurd (htakes.symm.trans refuses) (by simp)
  | takenBack unknown after others relocked =>
    refine iff_of_false (by simp) fun haccepts => ?_
    obtain ⟨w, hw⟩ := haccepts.known
    exact absurd (hw.symm.trans unknown) (by simp)
  | admitted welcome takes after =>
    obtain ⟨hchallenge, hunlocked, hplace⟩ := takes_iff.1 takes
    exact iff_of_true rfl ⟨welcome.allowed, welcome.known, hchallenge, hunlocked, hplace⟩

/-- An attempt with a copy of a task that was read while the task was open, made at any later time.
Whether it admits the worker has nothing to do with the task as it is stored by then, so exactly the
workers that it accepts are let into a task that is open no more. A worker that is admitted has a
replicate and a slot. It holds the slot as long as the record of the task stays as it is, and for
good if the task completed or failed before. -/
theorem late_admission {p₀ : Pool} {S : Step → Prop} (hp₀ : p₀.Reachable)
    (hoffered : p₀.Offered id t) (hlater : p₀.Leads S p) (wallet : String) :
    ∃ r q, p.attempt (acceptOrReject t wallet) = (r, q) ∧
      (r = .ok true ↔ p.Accepts t wallet) ∧
      (¬ (r = .ok true → ∃ u, p.Offered id u) ↔ p.Accepts t wallet ∧
        ∃ u, p.store.task? id = some u ∧ u.status ≠ .initialized ∧ u.status ≠ .running) ∧
      (r = .ok true → p.Joined id wallet q ∧ q.HoldsSlot id wallet ∧
        ∀ q', q.Runs (fun s e => e.Booked s) q' →
          (q'.store.task? id = p.store.task? id ∨ ∃ u, p.store.task? id = some u ∧
            (u.status = .completed ∨ u.status = .failed)) → q'.HoldsSlot id wallet) := by
  have hp : p.Reachable := hp₀.leads hlater
  have hk : p.store.Keyed := hp.wellKept.keyed
  obtain rfl : t.chainTaskId = id := hp₀.wellKept.keyed.task hoffered.stored
  have hstored : (p.store.task? t.chainTaskId).isSome :=
    hlater.keeps (P := fun q => (q.store.task? t.chainTaskId).isSome)
      (fun s _ _ hq => Step.task?_isSome hq) (hoffered.stored ▸ rfl)
  obtain ⟨u, hu⟩ := Option.isSome_iff_exists.1 hstored
  obtain ⟨r, q, hq, hattempted⟩ := exists_attempted hk hp.prompt t wallet
  have haccepts := hattempted.accepts_iff
  refine ⟨r, q, hq, haccepts, ⟨fun hnot => ?_, ?_⟩, fun hok => ?_⟩
  · obtain ⟨hok, hclosed⟩ := Classical.not_imp.1 hnot
    exact ⟨haccepts.1 hok, u, hu, fun hs => hclosed ⟨u, hu, .inl hs⟩,
      fun hs => hclosed ⟨u, hu, .inr hs⟩⟩
  · rintro ⟨hin, u', hu', hinitialized, hrunning⟩ hclaim
    obtain ⟨v, hv, hopen⟩ := hclaim (haccepts.2 hin)
    obtain rfl := Option.some.inj (hu'.symm.trans hv)
    exact hopen.elim hinitialized hrunning
  · subst hok
    cases hattempted with
    | admitted welcome takes after =>
      have hjoined := after.joined welcome.known
      obtain ⟨w, hw, -, hcomputing⟩ := hjoined.worker
      have hslot : q.HoldsSlot t.chainTaskId wallet := ⟨w, hw, hcomputing⟩
      refine ⟨hjoined, hslot, fun q' hrun hsame => ?_⟩
      have hsteps := acceptOrReject_admits t wallet p
      rw [hq] at hsteps
      have hq : q.Reachable := hp.leads hsteps
      have hallowed := (hsteps.isAllowed wallet).trans welcome.allowed
      have htask : q.store.task? t.chainTaskId = some u :=
        (congrArg (·.find? t.chainTaskId) hjoined.tasks).trans hu
      refine holdsSlot_of_runs hrun hq.wellKept.keyed hallowed hslot htask ?_
      rcases hsame with hsame | ⟨u', hu', hover⟩
      · exact hsame.trans hu
      · obtain rfl := Option.some.inj (hu'.symm.trans hu)
        refine task?_of_terminal (hrun.mono fun _ _ he => he.regular) hq.wellKept.keyed htask ?_
        rcases hover with hs | hs <;> rw [hs] <;> rfl

/-! ## A latecomer -/

/-- A pool with a worker for one task at once, and a task that is open and past its deadlines. -/
def overdue : Pool := blank.after [
  .insertTask { plainIn "0x1" .initialized with
    contributionDeadline := .epoch, finalDeadline := .epoch },
  .createList "0x1",
  .addWorker (.fresh .epoch "0xa" 1)]

/-- A task is read while it is open; it fails; the worker is admitted into it all the same. -/
theorem admitted_after_failure : overdue.Reachable ∧ ∃ t, overdue.Offered "0x1" t ∧
    ((overdue.update "0x1").store.task? "0x1").map (·.status) = some .failed ∧
    ∃ q, (overdue.update "0x1").attempt (acceptOrReject t "0xa") = (.ok true, q) ∧
      (q.store.task? "0x1").map (·.status) = some .failed ∧
      (q.store.replicate? "0x1" "0xa").isSome ∧ q.HoldsSlot "0x1" "0xa" ∧
      q.registry.canAccept "0xa" = false := by
  have hreachable : overdue.Reachable := isNew_blank.reachable.after _
  exact ⟨hreachable, _, ⟨rfl, .inl rfl⟩, rfl, _, rfl, rfl, rfl, ⟨_, rfl, by decide⟩, rfl⟩

/-- The worker is admitted into the failed task, and holds the slot however the run goes on. -/
theorem late_admission_overdue : overdue.Reachable ∧ ∃ t, overdue.Offered "0x1" t ∧
    overdue.Leads Step.Updates (overdue.update "0x1") ∧
    ∃ q, (overdue.update "0x1").attempt (acceptOrReject t "0xa") = (.ok true, q) ∧
      ∀ q', q.Runs (fun s e => e.Booked s) q' → q'.HoldsSlot "0x1" "0xa" := by
  have hreachable : overdue.Reachable := isNew_blank.reachable.after _
  have hlater : overdue.Leads Step.Updates (overdue.update "0x1") := updateTask_updates "0x1" _
  have hoffered : overdue.Offered "0x1" { plainIn "0x1" .initialized with
      contributionDeadline := .epoch, finalDeadline := .epoch } := ⟨rfl, .inl rfl⟩
  obtain ⟨r, q, hq, -, -, hadmitted⟩ := late_admission hreachable hoffered hlater "0xa"
  obtain rfl : .ok true = r := congrArg Prod.fst hq
  obtain ⟨-, -, hheld⟩ := hadmitted rfl
  exact ⟨hreachable, _, hoffered, hlater, q, hq, fun q' hrun =>
    hheld q' hrun (.inr ⟨_, rfl, .inr rfl⟩)⟩

end Pool

end ComputePool
