import ComputePool.Proofs.FirstFit
import ComputePool.Proofs.Lifecycle
import ComputePool.Proofs.Recovery.Idempotence

/-!
# Authorizations that are issued again

An authorization is signed twice by different services: by the one that admits the worker, and by
recovery when the worker comes back without having contributed. Both sign for the wallet, the task
and the challenge of the task, so the two are equal if the challenge, the signer and the record of
the worker are what they were. `Pool.Upholds` says that they are. It holds after the admission
(`Pool.upholds_of_found`), and no event takes it away as long as the worker is neither registered
anew nor removed (`Pool.Upholds.event`): a worker that was admitted may join, so the policy does not
remove it either. Where it holds recovery signs the same again (`Pool.Upholds.filter_notices`).
-/

namespace ComputePool

/-! ## Events -/

/-- The step neither registers the worker of a wallet nor removes it. -/
def Step.Spares (wallet : String) : Step → Prop
  | .addWorker w => w.wallet ≠ wallet
  | .removeWorker other => other ≠ wallet
  | _ => True

/-- An update registers nobody and removes nobody. -/
theorem Step.Updates.spares {s : Step} (h : s.Updates) (wallet : String) : s.Spares wallet := by
  cases s with
  | addWorker w => exact h.elim
  | removeWorker other => exact h.elim
  | _ => trivial

/-- A recovery registers nobody and removes nobody. -/
theorem Step.Recovers.spares {s : Step} (h : s.Recovers) (wallet : String) : s.Spares wallet := by
  cases s with
  | addWorker w => exact h.elim
  | removeWorker other => exact h.elim
  | _ => trivial

namespace Event

/-- Nobody but the policy removes the worker of a wallet, and it is not registered anew. -/
def Spares (wallet : String) : Event → Prop
  | .step s => s.Spares wallet
  | _ => True

/-- Tasks are stored as new ones and changed only by updates, and no worker registers with a task
twice on its record. -/
def Proper : Event → Prop
  | .step (.addWorker w) => w.participating.Nodup
  | e => e.Regular

theorem Proper.regular {e : Event} (h : e.Proper) : e.Regular := by
  cases e with
  | step s =>
    cases s with
    | addWorker w => trivial
    | _ => exact h
  | _ => trivial

theorem signer_apply (e : Event) (p : Pool) : (e.apply p).signer = p.signer :=
  (e.leads p).unchanged (f := (·.signer)) fun s _ q => s.signer_apply q

theorem isAllowed_apply (e : Event) (p : Pool) (wallet : String) :
    (e.apply p).registry.isAllowed wallet = p.registry.isAllowed wallet :=
  (e.leads p).isAllowed wallet

end Event

/-! ## The record of a worker -/

namespace Pool

variable {p q : Pool} {t : Task} {r : Replicate} {id wallet : String} {lastBlock : UInt64}
  {a : Authorization}

/-- No task stands twice on the record of a worker. -/
def RecordsOnce (p : Pool) : Prop :=
  ∀ wallet w, p.registry.worker? wallet = some w → w.participating.Nodup

/-- The task stands on the record of the worker, which is known, and no task stands there twice. -/
def OnRecord (p : Pool) (wallet id : String) : Prop :=
  ∃ w, p.registry.worker? wallet = some w ∧ id ∈ w.participating ∧ w.participating.Nodup

/-- A step records a task with a worker once at most, if workers are registered so. -/
theorem RecordsOnce.step (h : p.RecordsOnce) {s : Step}
    (hs : ∀ w, s = .addWorker w → w.participating.Nodup) : (s.apply p).RecordsOnce := by
  intro wallet w hw
  cases s.onWorker p wallet with
  | kept same => exact h wallet w (same.symm.trans hw)
  | registered w' step own after =>
    obtain rfl := Option.some.inj (after.symm.trans hw)
    exact hs w' step
  | removed step after => exact absurd (after.symm.trans hw) (by simp)
  | admitted i step after =>
    obtain ⟨w', hw', rfl⟩ := Option.map_eq_some_iff.1 (after.symm.trans hw)
    exact Worker.nodup_addOnce (h wallet w' hw')
  | released i step after =>
    obtain ⟨w', hw', rfl⟩ := Option.map_eq_some_iff.1 (after.symm.trans hw)
    exact h wallet w' hw'

/-- A proper event records a task with a worker once at most. -/
theorem RecordsOnce.event (h : p.RecordsOnce) {e : Event} (he : e.Proper) :
    (e.apply p).RecordsOnce := by
  -- no service registers a worker
  have hadd : ∀ w, e.steps (.addWorker w) → w.participating.Nodup := by
    intro w hw
    cases e with
    | step s =>
      obtain rfl : Step.addWorker w = s := hw
      exact he
    | serve i => exact hw.elim False.elim False.elim
    | _ => exact hw.elim
  refine (e.leads p).keeps (P := RecordsOnce) (fun s hs q hq => hq.step ?_) h
  rintro w rfl
  exact hadd w hs

/-- A task stays on record with a worker that the step spares. -/
theorem OnRecord.step (h : p.OnRecord wallet id) {s : Step} (hs : s.Spares wallet) :
    (s.apply p).OnRecord wallet id := by
  obtain ⟨w, hw, hin, honce⟩ := h
  cases s.onWorker p wallet with
  | kept same => exact ⟨w, same.trans hw, hin, honce⟩
  | registered w' step own after =>
    subst step
    exact absurd own hs
  | removed step after =>
    subst step
    exact absurd rfl hs
  | admitted i step after =>
    rw [hw] at after
    exact ⟨w.addTask i, after, Worker.mem_addOnce.2 (.inl hin), Worker.nodup_addOnce honce⟩
  | released i step after =>
    rw [hw] at after
    exact ⟨w.releaseTask i, after, hin, honce⟩

/-- A task stays on the record of a worker that may join. -/
theorem OnRecord.event (h : p.OnRecord wallet id) (hk : p.store.Keyed)
    (hallowed : p.registry.isAllowed wallet = true) {e : Event} (he : e.Spares wallet) :
    (e.apply p).OnRecord wallet id := by
  have hsteps : (∀ s, e.steps s → s.Spares wallet) → (e.apply p).OnRecord wallet id := fun hs =>
    (e.leads p).keeps (P := fun q => q.OnRecord wallet id) (fun s h q hq => hq.step (hs s h)) h
  cases e with
  | step s => exact h.step he
  | update i => exact hsteps fun s hs => Step.Updates.spares hs wallet
  | serve i =>
    refine hsteps fun s hs => ?_
    rcases hs with hs | hs
    · exact Step.Updates.spares hs wallet
    · exact Step.Recovers.spares (Step.Publishes.recovers hs) wallet
  | recover block other => exact hsteps fun s hs => Step.Recovers.spares hs wallet
  | detect d =>
    exact hsteps fun s hs => Step.Recovers.spares (Step.Publishes.recovers hs) wallet
  | find lastBlock other =>
    -- a request may remove a worker, but only one that may not join
    obtain ⟨w, hw, hin, honce⟩ := h
    have hfound := p.found hk lastBlock other
    change p.Found other ((Event.find lastBlock other).apply p) at hfound
    cases hfound with
    | nothing same => exact ⟨w, (congrArg (·.registry.worker? wallet) same).trans hw, hin, honce⟩
    | removed banned pool =>
      have hother : other ≠ wallet := by
        rintro rfl
        exact absurd (hallowed.symm.trans banned) (by simp)
      refine ⟨w, (congrArg (·.registry.worker? wallet) pool).trans ?_, hin, honce⟩
      exact (Registry.worker?_remove other wallet p.registry).trans ((if_neg hother).trans hw)
    | enrolled t welcome free stored isOpen enrolled =>
      have hworker := Registry.worker?_addTask enrolled.registry wallet
      rw [hw] at hworker
      split at hworker
      · exact ⟨w.addTask t.chainTaskId, hworker, Worker.mem_addOnce.2 (.inl hin),
          Worker.nodup_addOnce honce⟩
      · exact ⟨w, hworker, hin, honce⟩

/-! ## What an authorization rests on -/

/-- The authorization would be signed again: its worker may join and has the task on its record, and
signing for the task as it is stored gives the authorization. -/
structure Upholds (p : Pool) (wallet : String) (a : Authorization) : Prop where
  allowed : p.registry.isAllowed wallet = true
  record : p.OnRecord wallet a.chainTaskId
  task : ∃ t, p.store.task? a.chainTaskId = some t ∧ t.hasEnclaveChallenge = true ∧
    p.signer.authorize wallet t.chainTaskId t.enclaveChallenge = a

/-- Who was given an authorization may join, and was admitted into the task of which it tells. -/
theorem admitted_of_found (hp : p.Reachable)
    (h : p.attempt (findAuthorization lastBlock wallet) = (.ok (some a), q)) :
    ∃ w t, p.registry.worker? wallet = some w ∧ p.registry.isAllowed wallet = true ∧
      p.IsAdmissible w wallet t ∧
      a = p.signer.authorize wallet t.chainTaskId t.enclaveChallenge ∧
      p.Admitted wallet t.chainTaskId q := by
  by_cases hready : ∃ w, p.registry.worker? wallet = some w ∧ p.IsReady lastBlock w
  · obtain ⟨w, hw, hready⟩ := hready
    obtain ⟨answer, q', hq', hscans⟩ := attempt_findAuthorization hw hready
    obtain ⟨hanswer, rfl⟩ := Prod.mk.inj (hq'.symm.trans h)
    obtain rfl := Except.ok.inj hanswer
    cases hmax : p.maxAttempts with
    | zero =>
      rw [hmax] at hscans
      exact absurd hscans.of_no_attempts.1 (by simp)
    | succ attempts =>
      rw [hmax] at hscans
      cases hallowed : p.registry.isAllowed wallet with
      | false => exact absurd (hscans.banned hallowed).1 (by simp)
      | true =>
        have hfit := hscans.firstFit hp.wellKept.keyed hp.prompt ⟨⟨w, hw⟩, hallowed⟩
          fun _ _ => List.not_mem_nil
        obtain ⟨t, ht, -, hsigned, hadmitted⟩ := hfit.accepted a rfl
        exact ⟨w, t, hw, rfl, ht, hsigned, hadmitted⟩
  · have hnone : p.attempt (findAuthorization lastBlock wallet) = (.ok none, p) :=
      attempt_findAuthorization_unready fun w hw h => hready ⟨w, hw, h⟩
    exact absurd (congrArg Prod.fst (hnone.symm.trans h)) (by simp)

/-- What an authorization rests on is there once it was given. -/
theorem upholds_of_found (hp : p.Reachable) (hrecords : p.RecordsOnce)
    (h : p.attempt (findAuthorization lastBlock wallet) = (.ok (some a), q)) :
    q.Upholds wallet a := by
  obtain ⟨w, t, hw, hallowed, ht, rfl, hadmitted⟩ := admitted_of_found hp h
  obtain ⟨l, -, -, hstore⟩ := hadmitted.enrolled.list
  have hworker := Registry.worker?_addTask hadmitted.enrolled.registry wallet
  rw [if_pos rfl, hw] at hworker
  have hq : (Event.find lastBlock wallet).apply p = q := congrArg Prod.snd h
  have hkept := (Event.find lastBlock wallet).isAllowed_apply p wallet
  have hsigner := (Event.find lastBlock wallet).signer_apply p
  rw [hq] at hkept hsigner
  refine ⟨hkept.trans hallowed, ⟨_, hworker, ?_, Worker.nodup_addOnce (hrecords wallet w hw)⟩, t,
    ?_, ?_, ?_⟩
  · exact Worker.mem_addOnce.2 (.inr rfl)
  · rw [hstore]
    exact ht.candidate.stored
  · unfold Task.hasEnclaveChallenge
    simpa using ht.challenge
  · rw [hsigner]

end Pool

/-- No move changes a challenge that is there. -/
theorem Outlook.enclaveChallenge_moved {t : Task} (h : t.hasEnclaveChallenge = true) (o : Outlook)
    (s : TaskStatus) : (o.moved s t).enclaveChallenge = t.enclaveChallenge := by
  show (o.amended s t).enclaveChallenge = t.enclaveChallenge
  unfold amended
  split
  · unfold withChallenge
    rw [h, Bool.not_true, Bool.and_false]
    rfl
  · unfold withConsensus
    split <;> rfl
  · rfl
  · rfl
  · rfl

namespace Pool

variable {p q : Pool} {t : Task} {r : Replicate} {wallet : String} {block lastBlock : UInt64}
  {a : Authorization}

/-- What an authorization rests on stays. -/
theorem Upholds.event (h : p.Upholds wallet a) (hk : p.store.Keyed) {e : Event} (he : e.Regular)
    (hspares : e.Spares wallet) : (e.apply p).Upholds wallet a := by
  refine ⟨(e.isAllowed_apply p wallet).trans h.allowed, h.record.event hk h.allowed hspares, ?_⟩
  obtain ⟨t, ht, hchallenge, hsigned⟩ := h.task
  rw [e.signer_apply]
  cases Event.onTask he hk a.chainTaskId with
  | kept same => exact ⟨t, same.trans ht, hchallenge, hsigned⟩
  | inserted t' event new unknown after => exact absurd (unknown.symm.trans ht) (by simp)
  | moved t' s stored due after list =>
    obtain rfl := Option.some.inj (stored.symm.trans ht)
    have hsame := Outlook.enclaveChallenge_moved hchallenge (p.outlook a.chainTaskId) s
    refine ⟨_, after, Outlook.hasEnclaveChallenge_moved _ (.inl hchallenge), ?_⟩
    show p.signer.authorize wallet _ ((p.outlook a.chainTaskId).moved s t').enclaveChallenge = a
    rw [hsame]
    exact (congrArg (p.signer.authorize wallet · _)
      (Outlook.moved_chainTaskId _ s t')).trans hsigned

/-! ## What recovery tells -/

/-- The worker of a replicate has yet to contribute, by its reports and by the chain. -/
def AwaitsContribution (p : Pool) (id wallet : String) (r : Replicate) : Prop :=
  r.lastRelevant? = some .created ∨
    r.lastRelevant? = some .contributing ∧
      ∀ c, p.chain.contribution? id wallet = some c → c.isContributed = false

/-- A worker that has yet to contribute to an open task is told to, and gets an authorization. -/
theorem notice?_of_awaitsContribution (hopen : t.status.isOpen = true)
    (hchallenge : t.hasEnclaveChallenge = true)
    (hr : p.store.replicate? t.chainTaskId wallet = some r)
    (hawaits : p.AwaitsContribution t.chainTaskId wallet r) (block : UInt64) :
    p.notice? t wallet block = some (.forWorker t.chainTaskId wallet .contribute
      { Extra.none with
        authorization := some (p.signer.authorize wallet t.chainTaskId t.enclaveChallenge) }) := by
  have hphase := phase?_of_isOpen hopen
  have hlost : t.isLostFor r = false := isLostFor_of_contribution hphase
  have hlast : r.lastRelevant? = some .created ∨ r.lastRelevant? = some .contributing :=
    hawaits.imp_right And.left
  have hresumable : p.resumable? t wallet = some r := by
    unfold resumable?
    rw [hr]
    refine Option.filter_some_pos ?_
    unfold Replicate.isRecoverable
    rcases hlast with hlast | hlast <;> rw [hlast] <;> rfl
  have htell : t.canTell r = true := by
    have hhistory : r.history ≠ [] := by
      intro hnil
      unfold Replicate.lastRelevant? at hlast
      rw [hnil] at hlast
      exact absurd hlast (by simp)
    unfold Task.canTell
    rw [hchallenge, Bool.or_true, Bool.and_true, Bool.not_eq_true', List.isEmpty_eq_false_iff]
    exact hhistory
  have hnone : p.catchUp? t r block = none := by
    rw [catchUp?_of_told p block htell hlost, hphase]
    rcases hawaits with hlast | ⟨hlast, hchain⟩
    · rw [hlast]
    · rw [hlast, (resumable?_eq_some hresumable).2.1]
      dsimp only
      rw [Option.map_eq_none_iff, Option.filter_eq_none_iff]
      exact fun c hc => by rw [hchain c hc]; exact Bool.false_ne_true
  have hadvice : p.advice t r block = some .contribute := by
    rw [advice_of_phase p block htell hlost hphase (by decide), standing?_of_none hnone]
    rcases hlast with hlast | hlast <;> rw [hlast] <;> rfl
  unfold notice?
  rw [hresumable, Option.bind_some, hadvice]
  rfl

/-- A worker with a task once on its record is told about it what it would be told first. -/
theorem filter_notices (hp : p.WellKept) {ts : List Task} (hids : (ts.map (·.chainTaskId)).Nodup)
    (ht : t ∈ ts) :
    (p.notices wallet block ts).filter (·.chainTaskId == t.chainTaskId) =
      (p.notice? t wallet block).toList := by
  rw [(isTold_noticedAll hp wallet block hids).1]
  induction ts with
  | nil => exact absurd ht List.not_mem_nil
  | cons u rest ih =>
    rw [List.map_cons, List.nodup_cons] at hids
    have hcons : (u :: rest).filterMap (p.notice? · wallet block) =
        (p.notice? u wallet block).toList ++ rest.filterMap (p.notice? · wallet block) := by
      rw [List.filterMap_cons]
      cases p.notice? u wallet block <;> rfl
    rw [hcons, List.filter_append]
    rcases List.mem_cons.1 ht with rfl | ht
    · -- the others are told about under other ids
      have hfirst : (p.notice? t wallet block).toList.filter (·.chainTaskId == t.chainTaskId) =
          (p.notice? t wallet block).toList := by
        rw [List.filter_eq_self]
        intro n hn
        rw [(notice?_chainTaskId (Option.mem_toList.1 hn)).1]
        exact beq_self_eq_true _
      have hrest : (rest.filterMap (p.notice? · wallet block)).filter
          (·.chainTaskId == t.chainTaskId) = [] := by
        rw [List.filter_eq_nil_iff]
        intro n hn heq
        obtain ⟨v, hv, hn⟩ := List.mem_filterMap.1 hn
        rw [beq_iff_eq, (notice?_chainTaskId hn).1] at heq
        exact hids.1 (heq ▸ List.mem_map_of_mem hv)
      rw [hfirst, hrest, List.append_nil]
    · have hfirst : (p.notice? u wallet block).toList.filter (·.chainTaskId == t.chainTaskId) =
          [] := by
        rw [List.filter_eq_nil_iff]
        intro n hn heq
        rw [beq_iff_eq, (notice?_chainTaskId (Option.mem_toList.1 hn)).1] at heq
        exact hids.1 (heq ▸ List.mem_map_of_mem ht)
      rw [hfirst, List.nil_append]
      exact ih hids.2 ht

/-- Where the authorization is upheld, a worker that has yet to contribute is told so once, with the
same authorization. -/
theorem Upholds.filter_notices (h : p.Upholds wallet a) (hp : p.WellKept)
    (ht : p.store.task? a.chainTaskId = some t) (hopen : t.status.isOpen = true)
    (hr : p.store.replicate? a.chainTaskId wallet = some r)
    (hawaits : p.AwaitsContribution a.chainTaskId wallet r) (block : UInt64) :
    (p.notices wallet block (p.tasksOf wallet)).filter (·.chainTaskId == a.chainTaskId) =
      [.forWorker a.chainTaskId wallet .contribute
        { Extra.none with authorization := some a }] := by
  obtain ⟨t', ht', hchallenge, hsigned⟩ := h.task
  obtain rfl := Option.some.inj (ht.symm.trans ht')
  obtain ⟨w, hw, hin, honce⟩ := h.record
  have hid : t.chainTaskId = a.chainTaskId := hp.keyed.task ht
  have hids : p.registry.taskIds wallet = w.participating := by
    unfold Registry.taskIds
    rw [hw]
    rfl
  have hmem : t ∈ p.tasksOf wallet := by
    unfold tasksOf
    rw [hids]
    exact List.mem_filterMap.2 ⟨a.chainTaskId, hin, ht⟩
  have hdistinct : ((p.tasksOf wallet).map (·.chainTaskId)).Nodup := by
    unfold tasksOf
    rw [hids]
    exact (hp.keyed.sublist_tasksOf w.participating).nodup honce
  rw [← hid] at hr hawaits ⊢
  rw [Pool.filter_notices hp hdistinct hmem,
    notice?_of_awaitsContribution hopen hchallenge hr hawaits block, hsigned]
  rfl

/-- A lost authorization is issued again. Over a run that stores new tasks, changes them only by
updates and registers no worker with a task twice on its record, let a worker be given an
authorization. However the run goes on, as long as the worker is neither registered anew nor
removed by hand: while the task is open and the worker has yet to contribute, by its reports and by
the chain, recovery tells it one thing about the task, which is to contribute, with the very
authorization that it was given. -/
theorem authorization_reissued {start s : Pool} (hstart : start.IsNew)
    (hrun : start.Runs (fun _ e => e.Proper) p)
    (hfound : p.attempt (findAuthorization lastBlock wallet) = (.ok (some a), q))
    (hlater : q.Runs (fun _ e => e.Proper ∧ e.Spares wallet) s)
    (ht : s.store.task? a.chainTaskId = some t)
    (hopen : t.status = .initialized ∨ t.status = .running)
    (hr : s.store.replicate? a.chainTaskId wallet = some r)
    (hwaiting : r.lastRelevant? = some .created ∨
      r.lastRelevant? = some .contributing ∧
        ∀ c, s.chain.contribution? a.chainTaskId wallet = some c →
          c.status ≠ .contributed ∧ c.status ≠ .proved)
    (block : UInt64) :
    ∃ ns s', s.attempt (missedNotifications block wallet) = (.ok ns, s') ∧
      ns.filter (·.chainTaskId == a.chainTaskId) =
        [.forWorker a.chainTaskId wallet .contribute
          { Extra.none with authorization := some a }] := by
  have hp : p.Reachable := hrun.reachable hstart.reachable
  have hrecords : p.RecordsOnce := by
    refine hrun.keeps (P := RecordsOnce) (fun q e he hq => hq.event he) fun wallet w hw => ?_
    unfold Registry.worker? at hw
    rw [hstart.workers] at hw
    exact absurd hw (by simp)
  have hfind : (Event.find lastBlock wallet).apply p = q := congrArg Prod.snd hfound
  have hq : q.Reachable := hfind ▸ hp.leads ((Event.find lastBlock wallet).leads p)
  have hupholds : s.Upholds wallet a := hlater.keeps_keyed (P := fun q => q.Upholds wallet a)
    (fun q e hk he hq => hq.event hk he.1.regular he.2) hq.wellKept.keyed
    (upholds_of_found hp hrecords hfound)
  have hawaits : s.AwaitsContribution a.chainTaskId wallet r := by
    refine hwaiting.imp_right fun h => ⟨h.1, fun c hc => ?_⟩
    unfold Contribution.isContributed
    rw [beq_false_of_ne (h.2 c hc).1, beq_false_of_ne (h.2 c hc).2]
    rfl
  have hopen' : t.status.isOpen = true := by
    rcases hopen with hopen | hopen <;> rw [hopen] <;> rfl
  refine ⟨_, _, s.attempt_missedNotifications block wallet, ?_⟩
  exact hupholds.filter_notices (hlater.reachable hq).wellKept ht hopen' hr hawaits block

/-- A pool with a new task that was initialized, and a worker. -/
def vacant : Pool := [
  .step (.insertTask (.plain "0x1")),
  .step (.changeChain (·.setTask (.plain "0x1"))),
  .update "0x1",
  .update "0x1",
  .step (.addWorker (.fresh .epoch "0xa" 1))
  ].foldl Event.apply blank

/-- The worker was admitted, began to contribute, was lost, and came back once before. -/
def strayed : Pool := [
  .step (.updateReplicate "0x1" "0xa" (.byWorker .epoch .contributing none)),
  .step (.updateReplicate "0x1" "0xa" (.byPool .epoch .workerLost none)),
  .step (.addWorker (.fresh .epoch "0xb" 1)),
  .recover 7 "0xa"
  ].foldl Event.apply ((Event.find 1 "0xa").apply vacant)

/-- The worker is lost and comes back a second time, and is sent the authorization that it was given
at first. -/
theorem authorization_reissued_strayed :
    ∃ a q r, blank.Runs (fun _ e => e.Proper) vacant ∧
      vacant.attempt (findAuthorization 1 "0xa") = (.ok (some a), q) ∧
      q.Runs (fun _ e => e.Proper ∧ e.Spares "0xa") strayed ∧
      strayed.store.replicate? "0x1" "0xa" = some r ∧ r.status = .recovering ∧
      ∃ ns s', strayed.attempt (missedNotifications 9 "0xa") = (.ok ns, s') ∧
        ns.filter (·.chainTaskId == "0x1") =
          [.forWorker "0x1" "0xa" .contribute { Extra.none with authorization := some a }] := by
  have hnew : Event.Proper (.step (.insertTask (.plain "0x1"))) := ⟨rfl, rfl, .epoch, rfl⟩
  have hrun : blank.Runs (fun _ e => e.Proper) vacant := by
    refine .of_cons hnew ?_
    iterate 3 refine .of_cons trivial ?_
    exact .of_cons List.nodup_nil .refl
  have hfound : vacant.attempt (findAuthorization 1 "0xa") =
      (.ok (some (vacant.signer.authorize "0xa" "0x1" emptyEnclaveChallenge)),
        (Event.find 1 "0xa").apply vacant) := rfl
  have hlater : ((Event.find 1 "0xa").apply vacant).Runs
      (fun _ e => e.Proper ∧ e.Spares "0xa") strayed := by
    have hother : "0xb" ≠ "0xa" := by decide
    iterate 2 refine .of_cons ⟨trivial, trivial⟩ ?_
    exact .of_cons ⟨List.nodup_nil, hother⟩ (.of_cons ⟨trivial, trivial⟩ .refl)
  refine ⟨_, _, _, hrun, hfound, hlater, rfl, by decide, ?_⟩
  exact authorization_reissued isNew_blank hrun hfound hlater rfl (.inl rfl) rfl
    (.inr ⟨by decide, fun c hc => nomatch hc⟩) 9

end Pool

end ComputePool
