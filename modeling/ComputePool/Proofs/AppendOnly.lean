import ComputePool.Proofs.Lifecycle
import ComputePool.Proofs.Participants
import ComputePool.Proofs.Versions

/-!
# Nothing is taken back

What the scheduler does for a worker or for a task only adds to the records: a replicate keeps its
place and its history, and a task its history. Single steps give this at once for whatever neither
removes a replicate nor saves a task (`Step.holds`). Two services need a look of their own. An
update saves a task, and by `Event.onTask` it saves one more status and nothing else. An attempt at
a task may remove a replicate when the record of the work fails; what it removes is the one that it
has just added for a worker that was not in the list (`Store.Tried`), so the list has the
replicates again that it had.
-/

namespace ComputePool

/-- The second replicate is the first one at a later time. -/
structure Replicate.Continues (r r' : Replicate) : Prop where
  task : r'.chainTaskId = r.chainTaskId
  wallet : r'.wallet = r.wallet
  history : r.history <+: r'.history
  hash : ∀ {h : String}, r.contributionHash = some h → r'.contributionHash = some h

namespace Replicate.Continues

variable {r r' r'' : Replicate}

theorem refl (r : Replicate) : r.Continues r := ⟨rfl, rfl, List.prefix_refl _, fun h => h⟩

theorem trans (h : r.Continues r') (h' : r'.Continues r'') : r.Continues r'' :=
  ⟨h'.task.trans h.task, h'.wallet.trans h.wallet, h.history.trans h'.history,
    fun hhash => h'.hash (h.hash hhash)⟩

/-- A report is appended, and a hash that is there stays. -/
theorem updateStatus (r : Replicate) (u : StatusUpdate) : r.Continues (r.updateStatus u) := by
  refine ⟨rfl, rfl, List.prefix_append _ _, fun {h} hhash => ?_⟩
  show r.contributionHash.or u.resultHash? = some h
  rw [hhash, Option.some_or]

/-- What was reached stays reached. -/
theorem reached (h : r.Continues r') {s : ReplicateStatus} (hs : r.reached s = true) :
    r'.reached s = true := by
  obtain ⟨u, hu, hstatus⟩ := List.any_eq_true.1 hs
  exact List.any_eq_true.2 ⟨u, h.history.subset hu, hstatus⟩

end Replicate.Continues

namespace ReplicateList

variable {l l' l'' : ReplicateList} {wallet : String}

/-- The replicate of every worker in the first list goes on in the second. -/
def Continues (l l' : ReplicateList) : Prop :=
  ∀ wallet r, l.find? wallet = some r → ∃ r', l'.find? wallet = some r' ∧ r.Continues r'

theorem Continues.refl (l : ReplicateList) : l.Continues l := fun _ r hr => ⟨r, hr, .refl r⟩

theorem Continues.trans (h : l.Continues l') (h' : l'.Continues l'') : l.Continues l'' := by
  intro wallet r hr
  obtain ⟨r', hr', hfirst⟩ := h wallet r hr
  obtain ⟨r'', hr'', hsecond⟩ := h' wallet r' hr'
  exact ⟨r'', hr'', hfirst.trans hsecond⟩

/-- If nobody takes part twice, then every replicate goes on. -/
theorem Continues.mem (h : l.Continues l') (hl : l.wallets.Nodup) {r : Replicate}
    (hr : r ∈ l.replicates) : ∃ r' ∈ l'.replicates, r.Continues r' := by
  obtain ⟨r', hr', hcontinues⟩ := h _ r (find?_of_mem hl hr)
  exact ⟨r', List.mem_of_find?_eq_some hr', hcontinues⟩

/-- A newcomer changes nothing about the others. -/
theorem continues_plus (l : ReplicateList) (now : Instant) (newcomer id : String) :
    l.Continues (l.plus now newcomer id) :=
  fun _ r hr => ⟨r, find?_plus hr now newcomer id, .refl r⟩

/-- Only the reporter gets a further entry. -/
theorem continues_report (l : ReplicateList) (reporter : String) (u : StatusUpdate) :
    l.Continues (l.report reporter u) := by
  cases hreporter : l.find? reporter with
  | none =>
    rw [report_of_absent (hasWorker_eq_false_iff.2 hreporter)]
    exact .refl l
  | some r₀ =>
    intro wallet r hr
    rw [find?_report u hreporter]
    split
    · next heq =>
      subst heq
      obtain rfl := Option.some.inj (hreporter.symm.trans hr)
      exact ⟨_, rfl, .updateStatus r₀ u⟩
    · exact ⟨r, hr, .refl r⟩

/-- A removal does not change who else is found. -/
theorem find?_without {removed : String} (hne : wallet ≠ removed) :
    (l.without removed).find? wallet = l.find? wallet := by
  unfold without
  split
  · refine List.find?_filter.trans (congrArg (List.find? · l.replicates) (funext fun r => ?_))
    rw [Bool.eq_iff_iff, decide_eq_true_iff, and_iff_right_iff_imp, beq_iff_eq]
    rintro rfl
    exact bne_iff_ne.2 hne
  · rfl

/-- To remove a wallet right after it came in leaves the replicates that were there. -/
theorem continues_plus_without (h : l.hasWorker wallet = false) (now : Instant) (id : String) :
    l.Continues ((l.plus now wallet id).without wallet) := by
  intro w r hr
  have hne : w ≠ wallet := by
    rintro rfl
    exact absurd ((hasWorker_eq_false_iff.1 h).symm.trans hr) (by simp)
  exact ⟨r, (find?_without hne).trans (find?_plus hr now wallet id), .refl r⟩

end ReplicateList

/-! ## Lists -/

/-- The list of the task is there, with all the replicates of this one. -/
def Store.Holds (id : String) (l : ReplicateList) (s : Store) : Prop :=
  ∃ l', s.list? id = some l' ∧ l.Continues l'

theorem Store.holds_of_list? {s : Store} {id : String} {l : ReplicateList}
    (h : s.list? id = some l) : s.Holds id l := ⟨l, h, .refl l⟩

/-- Only a removal takes replicates out of a list. -/
theorem Step.holds {s : Step} {p : Pool} {id : String} {l : ReplicateList}
    (hs : ∀ wallet, s ≠ .removeReplicate id wallet) (h : p.store.Holds id l) :
    (s.apply p).store.Holds id l := by
  obtain ⟨k, hk, hcontinues⟩ := h
  cases s.onList p id with
  | kept same => exact ⟨k, same.trans hk, hcontinues⟩
  | created step unknown after => exact absurd (unknown.symm.trans hk) (by simp)
  | added read wallet k' step of before absent after =>
    obtain rfl := Option.some.inj (before.symm.trans hk)
    exact ⟨_, after, hcontinues.trans (k'.continues_plus p.now wallet id)⟩
  | reported wallet u k' step before after =>
    obtain rfl := Option.some.inj (before.symm.trans hk)
    exact ⟨_, after, hcontinues.trans (k'.continues_report wallet u)⟩
  | removed wallet k' step before after => exact absurd step (hs wallet)

/-- The replicate of the worker once had the status. -/
def Store.HasReached (id wallet : String) (status : ReplicateStatus) (s : Store) : Prop :=
  ∃ r, s.replicate? id wallet = some r ∧ r.reached status = true

/-- What the replicate of a worker has reached stays on record, unless it is removed. -/
theorem Step.hasReached {s : Step} {p : Pool} {id wallet : String} {status : ReplicateStatus}
    (hs : ∀ w, s ≠ .removeReplicate id w) (h : p.store.HasReached id wallet status) :
    (s.apply p).store.HasReached id wallet status := by
  obtain ⟨r, hr, hreached⟩ := h
  obtain ⟨l, hl, hfind⟩ := Option.bind_eq_some_iff.1 hr
  obtain ⟨l', hl', hlist⟩ := Step.holds hs (Store.holds_of_list? hl)
  obtain ⟨r', hfind', hcontinues⟩ := hlist wallet r hfind
  exact ⟨r', Option.bind_eq_some_iff.2 ⟨l', hl', hfind'⟩, hcontinues.reached hreached⟩

/-! ## An attempt at a task -/

/-- What an attempt to let a worker into a task may do to the records: nothing, or it adds the
worker to the list, or it adds the worker and removes it again. -/
inductive Store.Tried (id wallet : String) (s : Store) : Store → Prop where
  | nothing : Tried id wallet s s
  | joined {l : ReplicateList} (now : Instant) (list : s.list? id = some l)
      (absent : l.hasWorker wallet = false) :
      Tried id wallet s (s.setList id (l.plus now wallet id))
  | withdrawn {l : ReplicateList} (now : Instant) (list : s.list? id = some l)
      (absent : l.hasWorker wallet = false) :
      Tried id wallet s ((s.setList id (l.plus now wallet id)).removeReplicate id wallet).2

/-- An attempt at an admission takes nothing from a list that was there. -/
theorem Store.Tried.holds {s s' : Store} {id wallet : String} (h : s.Tried id wallet s')
    {i : String} {l : ReplicateList} (hl : s.list? i = some l) : s'.Holds i l := by
  cases h with
  | nothing => exact holds_of_list? hl
  | @joined k now list absent =>
    by_cases hi : id = i
    · subst hi
      obtain rfl := Option.some.inj (list.symm.trans hl)
      exact ⟨_, (list?_setList ..).trans (if_pos rfl), k.continues_plus now wallet id⟩
    · exact holds_of_list? ((list?_setList ..).trans ((if_neg hi).trans hl))
  | @withdrawn k now list absent =>
    have hafter := (s.setList id (k.plus now wallet id)).list?_removeReplicate id wallet i
    by_cases hi : id = i
    · subst hi
      obtain rfl := Option.some.inj (list.symm.trans hl)
      rw [if_pos rfl, list?_setList, if_pos rfl] at hafter
      exact ⟨_, hafter, k.continues_plus_without absent now id⟩
    · rw [if_neg hi, list?_setList, if_neg hi] at hafter
      exact holds_of_list? (hafter.trans hl)

namespace Pool

variable {p q : Pool} {t : Task} {wallet : String}

/-- A replicate that is added is taken back if the record of the work fails. -/
theorem tried_enrol {l : ReplicateList} (hid : l.chainTaskId = t.chainTaskId) :
    p.store.Tried t.chainTaskId wallet (p.attempt (enrol t wallet l)).2.store := by
  -- the record of the work is in the registry
  have hbooked : ∀ q : Pool, (q.addWork wallet t.chainTaskId).2.store = q.store := fun q =>
    Step.store_apply (s := .addWork wallet t.chainTaskId) q (by simp [Step.part])
  unfold enrol
  rw [attempt_bind, attempt_certain, perform_addReplicate]
  have hadding := p.adding l wallet
  generalize p.addReplicate l wallet = result at hadding
  cases hadding with
  | unknown => exact .nothing
  | stale => exact .nothing
  | taken => exact .nothing
  | @added k stored version absent =>
    rw [hid] at stored
    dsimp only
    rw [hid, attempt_bind, attempt_certain, perform_addWork]
    set q : Pool := { p with
      store := p.store.setList t.chainTaskId (k.plus p.now wallet t.chainTaskId) }
    dsimp only
    split
    · show p.store.Tried t.chainTaskId wallet (q.addWork wallet t.chainTaskId).2.store
      rw [hbooked]
      exact .joined p.now stored absent
    · show p.store.Tried t.chainTaskId wallet
        ((q.addWork wallet t.chainTaskId).2.store.removeReplicate t.chainTaskId wallet).2
      rw [hbooked]
      exact .withdrawn p.now stored absent

/-- The decision under the lock adds a replicate and may take it back, and does nothing else. -/
theorem tried_decideLocked (hk : p.store.Keyed) :
    p.store.Tried t.chainTaskId wallet (p.attempt (decideLocked t wallet)).2.store := by
  have hget : p.attempt (stored (Collaborators.getList t.chainTaskId)) =
      (.ok (p.store.list? t.chainTaskId), p) := rfl
  unfold decideLocked
  rw [attempt_bind_ok hget]
  cases hl : p.store.list? t.chainTaskId with
  | none => exact .nothing
  | some l =>
    have hreached : p.attempt (certain (isConsensusReached l)) = (.ok (p.hasConsensus l), p) := by
      rw [attempt_certain, perform_isConsensusReached]
    dsimp only
    rw [attempt_ite]
    split
    · exact .nothing
    · rw [attempt_bind_ok hreached, attempt_ite]
      split
      · exact .nothing
      · exact tried_enrol (hk.list hl)

/-- Whoever asks, for whatever task: beyond the locks and the registry an attempt changes one list
at most. -/
theorem tried_acceptOrReject (hk : p.store.Keyed) :
    p.store.Tried t.chainTaskId wallet (p.attempt (acceptOrReject t wallet)).2.store := by
  have hallowed : p.attempt (stored (Collaborators.isAllowedToJoin wallet)) =
      (.ok (p.registry.isAllowed wallet), p) := rfl
  have hget : p.attempt (stored (Collaborators.getList t.chainTaskId)) =
      (.ok (p.store.list? t.chainTaskId), p) := rfl
  have hlock : p.attempt (certain (Collaborators.tryLock t.chainTaskId)) =
      (.ok (p.tryLock t.chainTaskId).1, (p.tryLock t.chainTaskId).2) := rfl
  unfold acceptOrReject
  rw [attempt_bind_ok hallowed, attempt_ite]
  split
  · exact .nothing
  rw [attempt_ite]
  split
  · exact .nothing
  rw [attempt_bind_ok hget]
  cases hl : p.store.list? t.chainTaskId with
  | none => exact .nothing
  | some l =>
    dsimp only
    rw [attempt_ite]
    split
    · exact .nothing
    rw [attempt_bind_ok hlock]
    cases hticket : (p.tryLock t.chainTaskId).1 with
    | none => exact .nothing
    | some ticket => exact tried_decideLocked (p := (p.tryLock t.chainTaskId).2) hk

end Pool

/-! ## Operations -/

/-- What the scheduler is asked for. -/
inductive Operation where
  | find (lastBlock : UInt64) (wallet : String)
  | accept (t : Task) (wallet : String)
  | recover (block : UInt64) (wallet : String)
  | instruct (t : Task) (r : Replicate) (block : UInt64)
  | update (id : String)
  | publish (id : String)
  | sweep
  | detect (d : Detector)

namespace Operation

/-- The pool after an operation, whatever the answer. -/
def apply (p : Pool) : Operation → Pool
  | .find lastBlock wallet => (p.attempt (findAuthorization lastBlock wallet)).2
  | .accept t wallet => (p.attempt (acceptOrReject t wallet)).2
  | .recover block wallet => (p.attempt (missedNotifications block wallet)).2
  | .instruct t r block => (p.attempt (instructionFor t r block)).2
  | .update id => (p.attempt (updateTask id)).2
  | .publish id => (p.perform (publishRequest id)).2
  | .sweep => p.changeDispatcher (·.sweep p.now)
  | .detect d => (p.attempt (ComputePool.detect d)).2

variable {p : Pool} {id : String}

/-- No operation takes a replicate out of a list. -/
theorem holds (hk : p.store.Keyed) {l : ReplicateList} (hl : p.store.list? id = some l)
    (o : Operation) : (o.apply p).store.Holds id l := by
  have hevent : ∀ e : Event, (∀ wallet, e ≠ .step (.removeReplicate id wallet)) →
      (e.apply p).store.Holds id l := fun e he =>
    Event.keeps_records (fun s q hs h => Step.holds hs h) hk he (Store.holds_of_list? hl)
  cases o with
  | find lastBlock wallet => exact hevent (.find lastBlock wallet) (by simp)
  | accept t wallet => exact (Pool.tried_acceptOrReject hk).holds hl
  | recover block wallet => exact hevent (.recover block wallet) (by simp)
  | instruct t r block =>
    exact (instructionFor_recovers t r block p).keeps (P := fun q => q.store.Holds id l)
      (fun s hs q hq => Step.holds (by rintro wallet rfl; exact hs) hq) (Store.holds_of_list? hl)
  | update i => exact hevent (.update i) (by simp)
  | publish i => exact hevent (.step (.publish i)) (by simp)
  | sweep => exact hevent (.step (.dispatch .sweep)) (by simp)
  | detect d => exact hevent (.detect d) (by simp)

/-- Tasks are changed by updates alone. -/
theorem tasks_apply {o : Operation} (ho : ∀ id, o ≠ .update id) :
    (o.apply p).store.tasks = p.store.tasks := by
  have hleads : ∀ {S : Step → Prop} {q : Pool}, (∀ s, S s → ¬ s.WritesTasks) → p.Leads S q →
      q.store.tasks = p.store.tasks := fun hS hq =>
    hq.unchanged (f := fun q => q.store.tasks) fun s hs q => Step.tasks_apply (hS s hs) q
  cases o with
  | find lastBlock wallet =>
    exact hleads (fun _ => Step.Admits.not_writesTasks)
      (findAuthorization_admits lastBlock wallet p)
  | accept t wallet =>
    exact hleads (fun _ => Step.Admits.not_writesTasks) (acceptOrReject_admits t wallet p)
  | recover block wallet =>
    exact hleads (fun _ => Step.Recovers.not_writesTasks)
      (missedNotifications_recovers block wallet p)
  | instruct t r block =>
    exact hleads (fun _ => Step.Recovers.not_writesTasks) (instructionFor_recovers t r block p)
  | update i => exact absurd rfl (ho i)
  | publish i => exact Step.tasks_apply (s := .publish i) not_false p
  | sweep => rfl
  | detect d =>
    exact hleads (fun _ hs => Step.Recovers.not_writesTasks hs.recovers) (detect_publishes d p)

/-- A task keeps its history, whatever the operation. -/
theorem task?_apply (hk : p.store.Keyed) {t : Task} (ht : p.store.task? id = some t)
    (o : Operation) :
    ∃ t', (o.apply p).store.task? id = some t' ∧ t.history <+: t'.history := by
  by_cases ho : ∃ i, o = .update i
  · obtain ⟨i, rfl⟩ := ho
    have hregular : (Event.update i).Regular := trivial
    cases Event.onTask hregular hk id with
    | kept same => exact ⟨t, same.trans ht, List.prefix_refl _⟩
    | inserted t' event new unknown after => exact absurd (unknown.symm.trans ht) (by simp)
    | moved t' s stored due after list =>
      obtain rfl := Option.some.inj (stored.symm.trans ht)
      refine ⟨_, after, ?_⟩
      show t'.history <+: ((p.outlook id).moved s t').history
      rw [Outlook.moved_history]
      exact List.prefix_append _ _
  · have htasks := tasks_apply (p := p) fun i hi => ho ⟨i, hi⟩
    refine ⟨t, ?_, List.prefix_refl _⟩
    unfold Store.task? at ht ⊢
    rw [htasks]
    exact ht

end Operation

namespace Pool

/-- The scheduler only adds to the records. After an operation every list that was there has all
the replicates that it had, each with its history and perhaps more, and with the contribution hash
that it had, if any; every task that was there has its history and perhaps more. An operation other
than an update leaves the tasks alone altogether. -/
theorem only_appends {p : Pool} (hp : p.Reachable) (o : Operation) :
    (∀ id l, p.store.list? id = some l → ∃ l', (o.apply p).store.list? id = some l' ∧
      ∀ r ∈ l.replicates, ∃ r' ∈ l'.replicates, r.Continues r') ∧
    (∀ id t, p.store.task? id = some t → ∃ t', (o.apply p).store.task? id = some t' ∧
      t.history <+: t'.history) ∧
    ((∀ id, o ≠ .update id) → (o.apply p).store.tasks = p.store.tasks) := by
  have hk := hp.wellKept.keyed
  refine ⟨fun id l hl => ?_, fun id t ht => o.task?_apply hk ht, Operation.tasks_apply⟩
  obtain ⟨l', hl', hcontinues⟩ := o.holds hk hl
  exact ⟨l', hl', fun r hr => hcontinues.mem (hp.distinct id l hl) hr⟩

/-- An unknown worker is let in and taken out again, and the worker that was there stays. -/
theorem only_appends_withdrawn : ∃ t l l', revealing.Reachable ∧
    (revealing.attempt (acceptOrReject t "0xb")).1 =
      .error (.store (.notFound "worker" "0xb")) ∧
    revealing.store.list? "0x1" = some l ∧
    ((Operation.accept t "0xb").apply revealing).store.list? "0x1" = some l' ∧
    l'.version = l.version + 2 ∧ ∀ r ∈ l.replicates, ∃ r' ∈ l'.replicates, r.Continues r' := by
  set t : Task := { Task.plain "0x1" with trust := 2, enclaveChallenge := "0x0" }
  obtain ⟨hlists, -, -⟩ := only_appends reachable_revealing (.accept t "0xb")
  obtain ⟨l', hl', hcontinues⟩ := hlists "0x1" _ rfl
  refine ⟨t, _, l', reachable_revealing, rfl, rfl, hl', ?_, hcontinues⟩
  -- the version shows that the replicate came and went
  have hafter : ((Operation.accept t "0xb").apply revealing).store.list? "0x1" = some _ := rfl
  obtain rfl := Option.some.inj (hl'.symm.trans hafter)
  rfl

end Pool

end ComputePool
