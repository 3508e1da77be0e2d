import ComputePool.Proofs.Participants
import ComputePool.Proofs.Recovery.Idempotence

/-!
# What recovery writes

Recovery may write on a replicate, and on the queue, and nowhere else. On a replicate it leaves its
mark, and before the mark at most one report, of progress that the chain or the repository proves
(`Pool.Proven`). A task for which there was something to report is published, and its request is
still there when the worker has its answer.

`Pool.entries` is what is written for one task, in the order in which it is written. Whatever is
reported is followed by the mark, since there is always something to tell to a worker that was just
brought up to date (`Pool.isSome_advice`). The tasks of a worker have different lists, so what is
written for one of them does not depend on the others (`Pool.written_noticedAll`).
-/

namespace ComputePool

/-! ## Several updates at once -/

/-- Appends status updates, the first one first. -/
def Replicate.updateAll (us : List StatusUpdate) (r : Replicate) : Replicate :=
  us.foldl (fun r u => r.updateStatus u) r

/-- Reports in sequence are appended in their order. -/
theorem Replicate.history_updateAll (us : List StatusUpdate) (r : Replicate) :
    (r.updateAll us).history = r.history ++ us := by
  induction us generalizing r with
  | nil => exact (List.append_nil _).symm
  | cons u rest ih => exact (ih (r.updateStatus u)).trans (List.append_assoc r.history [u] rest)

/-- The list after several updates of the replicate of a wallet. -/
def ReplicateList.reportAll (wallet : String) (us : List StatusUpdate) (l : ReplicateList) :
    ReplicateList :=
  us.foldl (fun l u => l.report wallet u) l

/-- Reports to a list may be cut in two anywhere. -/
theorem ReplicateList.reportAll_append (l : ReplicateList) (wallet : String)
    (us vs : List StatusUpdate) :
    l.reportAll wallet (us ++ vs) = (l.reportAll wallet us).reportAll wallet vs :=
  List.foldl_append

/-- Where wallets are apart, reports of one wallet change its replicate and no other. -/
theorem ReplicateList.replicates_reportAll {l : ReplicateList} (h : l.wallets.Nodup)
    (wallet : String) (us : List StatusUpdate) :
    (l.reportAll wallet us).replicates =
      l.replicates.map fun r => if r.wallet = wallet then r.updateAll us else r := by
  induction us generalizing l with
  | nil =>
    refine (List.map_id' _).symm.trans (List.map_congr_left fun r _ => ?_)
    exact (ite_self r).symm
  | cons u rest ih =>
    show ((l.report wallet u).reportAll wallet rest).replicates = _
    rw [ih (by rwa [wallets_report]), replicates_report h, List.map_map]
    refine List.map_congr_left fun r _ => ?_
    rw [Function.comp_apply]
    by_cases hr : r.wallet = wallet
    · have hupdated : (r.updateStatus u).wallet = wallet := hr
      rw [if_pos hr, if_pos hr, if_pos hupdated]
      rfl
    · rw [if_neg hr, if_neg hr, if_neg hr]

namespace Pool

variable {p q : Pool} {t : Task} {r : Replicate} {u : StatusUpdate} {id wallet : String}
  {block : UInt64}

/-! ## One task -/

/-- Progress of a replicate that was never reported: its contribution and its reveal as the chain
has them, its upload as the repository has it. -/
inductive Proven (p : Pool) (id : String) (r : Replicate) (block : UInt64) :
    StatusUpdate → Prop where
  | contributed {c : Contribution} (last : r.lastRelevant? = some .contributing)
      (found : p.chain.contribution? id r.wallet = some c)
      (made : c.status = .contributed ∨ c.status = .proved) :
      Proven p id r block (.byPool p.now .contributed
        (some { Details.ofBlock block with resultHash := some c.resultHash }))
  | revealed {c : Contribution} (last : r.lastRelevant? = some .revealing)
      (found : p.chain.contribution? id r.wallet = some c) (made : c.status = .proved) :
      Proven p id r block (.byPool p.now .revealed (some (.ofBlock block)))
  | uploaded (last : r.lastRelevant? = some .resultUploading)
      (found : p.chain.isUploaded id = true) :
      Proven p id r block (.byPool p.now .resultUploaded (some .none))

/-- What the chain proves is told with the details that the chain has. -/
theorem Proves.proven (h : p.Proves t r block u) : p.Proven t.chainTaskId r block u := by
  cases h with
  | contributed phase last found made =>
    refine .contributed last found ?_
    unfold Contribution.isContributed at made
    simpa using made
  | revealed phase last found made => exact .revealed last found (beq_iff_eq.1 made)
  | uploaded phase last found => exact .uploaded last found

/-- There is something to tell to every worker that was just brought up to date. -/
theorem isSome_advice (h : p.catchUp? t r block = some u) : (p.advice t r block).isSome := by
  obtain ⟨htell, hlost, hproves⟩ := catchUp?_eq_some h
  obtain ⟨phase, hphase, hcompletion⟩ := hproves.phase
  rw [advice_of_phase p block htell hlost hphase hcompletion,
    standing?_of_some h hproves.isRelevant.1, Option.bind_some]
  cases hproves with
  | contributed hcontribution =>
    obtain rfl := Option.some.inj (hphase.symm.trans hcontribution)
    rfl
  | revealed hreveal =>
    obtain rfl := Option.some.inj (hphase.symm.trans hreveal)
    rfl
  | uploaded hupload =>
    obtain rfl := Option.some.inj (hphase.symm.trans hupload)
    rfl

/-- What is written on the replicate of the worker when it is told about a task. -/
def entries (t : Task) (wallet : String) (block : UInt64) (p : Pool) : List StatusUpdate :=
  ((p.resumable? t wallet).bind (p.catchUp? t · block)).toList ++
    if (p.notice? t wallet block).isSome then [.byPool p.now .recovering none] else []

/-- What is written for a task is the same after recoveries of other tasks. -/
theorem entries_congr (h : p.Recovered q)
    (hlist : q.store.list? t.chainTaskId = p.store.list? t.chainTaskId) :
    q.entries t wallet block = p.entries t wallet block := by
  unfold entries
  rw [resumable?_congr hlist, notice?_congr h hlist, h.now]
  congr 3
  funext r
  exact catchUp?_congr h

/-- Something is written just where something is told: the mark, after what the chain proves. -/
theorem entries_cases (p : Pool) (t : Task) (wallet : String) (block : UInt64) :
    p.notice? t wallet block = none ∧ p.entries t wallet block = [] ∨
      ∃ r, p.resumable? t wallet = some r ∧ (p.notice? t wallet block).isSome ∧
        (p.entries t wallet block = [.byPool p.now .recovering none] ∨
          ∃ u, p.catchUp? t r block = some u ∧
            p.entries t wallet block = [u, .byPool p.now .recovering none]) := by
  unfold entries
  cases hr : p.resumable? t wallet with
  | none =>
    have hnone : p.notice? t wallet block = none := by
      unfold notice?
      rw [hr]
      rfl
    rw [hnone]
    exact .inl ⟨rfl, rfl⟩
  | some r =>
    have hnotice : (p.notice? t wallet block).isSome = (p.advice t r block).isSome := by
      unfold notice?
      rw [hr, Option.bind_some, Option.isSome_map]
    rw [Option.bind_some, hnotice]
    cases hu : p.catchUp? t r block with
    | some u =>
      rw [isSome_advice hu]
      exact .inr ⟨r, rfl, rfl, .inr ⟨u, hu, rfl⟩⟩
    | none =>
      cases hadvice : p.advice t r block with
      | some i => exact .inr ⟨r, rfl, rfl, .inl rfl⟩
      | none =>
        rw [hadvice] at hnotice
        exact .inl ⟨Option.not_isSome_iff_eq_none.1 (by simp [hnotice]), rfl⟩

/-- Telling a worker about a task writes `entries` into its list. -/
theorem list?_noticed (p : Pool) (t : Task) (wallet : String) (block : UInt64) :
    (p.noticed t wallet block).store.list? t.chainTaskId =
      (p.store.list? t.chainTaskId).map (·.reportAll wallet (p.entries t wallet block)) := by
  cases hr : p.resumable? t wallet with
  | none =>
    have hentries : p.entries t wallet block = [] := by
      unfold entries notice?
      rw [hr]
      rfl
    have hnoticed : p.noticed t wallet block = p := by
      unfold noticed
      rw [hr]
    rw [hentries, hnoticed]
    exact Option.map_id'.symm
  | some r =>
    obtain ⟨-, hwallet, -⟩ := resumable?_eq_some hr
    have hadvised : (p.advised t r block).store.list? t.chainTaskId =
        (p.store.list? t.chainTaskId).map
          (·.reportAll wallet (p.catchUp? t r block).toList) := by
      rw [list?_advised, list?_caughtUp, if_pos rfl, hwallet]
      cases p.catchUp? t r block with
      | none => rfl
      | some u => rfl
    have hnow : (p.advised t r block).now = p.now :=
      (Recovered.of_leads (p.leads_advised t r block)).now
    unfold noticed entries notice?
    rw [hr, Option.bind_some, Option.bind_some, Option.isSome_map]
    dsimp only
    split
    · rw [list?_marked, if_pos rfl, hadvised, Option.map_map, hnow]
      congr 1
      funext l
      rw [ReplicateList.reportAll_append]
      rfl
    · rw [hadvised, List.append_nil]

/-- A publication for a replicate that was brought up to date need not be made again. -/
theorem absorbs_noticed (hp : p.WellKept) (hr : p.resumable? t wallet = some r)
    (hu : p.catchUp? t r block = some u) :
    (p.noticed t wallet block).Absorbs t.chainTaskId := by
  have hcaughtUp : (p.caughtUp t r block).Absorbs t.chainTaskId := by
    rw [caughtUp_of_some hu]
    exact absorbs_after_publish t.chainTaskId (hp.step (.updateReplicate t.chainTaskId r.wallet u))
  have hrest : (p.caughtUp t r block).Leads Step.Recovers (p.noticed t wallet block) := by
    have hadvised : (p.caughtUp t r block).Leads Step.Recovers (p.advised t r block) := by
      unfold advised
      split
      · exact leads_after (by simp [Step.Recovers]) _
      · exact .refl _
    unfold noticed
    rw [hr]
    dsimp only
    split
    · exact hadvised.trans (leads_marked ..)
    · exact hadvised
  exact hcaughtUp.leads (hp.leads (p.leads_caughtUp t r block)) hrest

/-! ## All tasks of a worker -/

/-- What is written for one of several tasks is what would be written for it alone. -/
theorem written_noticedAll (hp : p.WellKept) (wallet : String) (block : UInt64) {ts : List Task}
    (hids : (ts.map (·.chainTaskId)).Nodup) (ht : t ∈ ts) :
    (p.noticedAll wallet block ts).store.list? t.chainTaskId =
        (p.store.list? t.chainTaskId).map (·.reportAll wallet (p.entries t wallet block)) ∧
      ∀ r u, p.resumable? t wallet = some r → p.catchUp? t r block = some u →
        (p.noticedAll wallet block ts).Absorbs t.chainTaskId := by
  induction ts generalizing p with
  | nil => exact absurd ht List.not_mem_nil
  | cons first rest ih =>
    rw [List.map_cons, List.nodup_cons] at hids
    have hfirst := p.leads_noticed first wallet block
    have hp' : (p.noticed first wallet block).WellKept := hp.leads hfirst
    rcases List.mem_cons.1 ht with rfl | hrest
    · refine ⟨?_, fun r u hr hu => ?_⟩
      · rw [← list?_noticed]
        exact list?_noticedAll_of_notMem _ wallet block hids.1
      · exact (absorbs_noticed hp hr hu).leads hp' (leads_noticedAll _ wallet block rest)
    · -- what was written for the first task does not show in this one's list
      have hlist : (p.noticed first wallet block).store.list? t.chainTaskId =
          p.store.list? t.chainTaskId :=
        p.list?_noticed_of_ne wallet block fun h => hids.1 (h ▸ List.mem_map_of_mem hrest)
      obtain ⟨hwritten, habsorbs⟩ := ih hp' hids.2 hrest
      rw [hlist, entries_congr (.of_leads hfirst) hlist] at hwritten
      refine ⟨hwritten, fun r u hr hu => habsorbs r u ?_ ?_⟩
      · rw [resumable?_congr hlist]
        exact hr
      · rw [catchUp?_congr (.of_leads hfirst)]
        exact hu

/-- The worker is told about a task of its record just where something is written for it. -/
theorem mem_ids_notices (hp : p.WellKept) (hids : (p.registry.taskIds wallet).Nodup)
    (ht : t ∈ p.tasksOf wallet) :
    t.chainTaskId ∈ (p.notices wallet block (p.tasksOf wallet)).map (·.chainTaskId) ↔
      p.entries t wallet block ≠ [] := by
  have hdistinct : ((p.tasksOf wallet).map (·.chainTaskId)).Nodup :=
    hids.sublist (hp.keyed.sublist_tasksOf _)
  rw [(isTold_noticedAll hp wallet block hdistinct).1, List.mem_map]
  constructor
  · rintro ⟨n, hn, hnt⟩ hempty
    obtain ⟨t', ht', hn⟩ := List.mem_filterMap.1 hn
    -- the task of the notification is this one
    have hstored : p.store.task? t.chainTaskId = some t := task?_of_mem_tasksOf hp.keyed ht
    have hstored' : p.store.task? t'.chainTaskId = some t' := task?_of_mem_tasksOf hp.keyed ht'
    rw [← (notice?_chainTaskId hn).1, hnt, hstored] at hstored'
    obtain rfl := Option.some.inj hstored'
    rcases p.entries_cases t wallet block with ⟨hnone, -⟩ | ⟨r, -, -, hmark | ⟨u, -, hentries⟩⟩
    · exact absurd (hnone.symm.trans hn) (by simp)
    · exact absurd (hmark.symm.trans hempty) (by simp)
    · exact absurd (hentries.symm.trans hempty) (by simp)
  · intro hsome
    rcases p.entries_cases t wallet block with ⟨-, hempty⟩ | ⟨r, -, hnotice, -⟩
    · exact absurd hempty hsome
    · obtain ⟨n, hn⟩ := Option.isSome_iff_exists.1 hnotice
      exact ⟨n, List.mem_filterMap.2 ⟨t, ht, hn⟩, (notice?_chainTaskId hn).1⟩

/-! ## The request -/

/-- All that a recovery writes. Besides replicates and the dispatcher nothing changes. For each
task, what is appended to the replicate of the worker is nothing, or the mark, or the mark after a
report of what the chain proves; something is appended just where the worker is told something, and
no other replicate changes. A task for which something was reported has a request in the queue. -/
theorem recovery_writes (hp : p.Reachable) (hids : (p.registry.taskIds wallet).Nodup)
    (block : UInt64) :
    ∃ ns q, p.attempt (missedNotifications block wallet) = (.ok ns, q) ∧
      q = { p with store := q.store, dispatcher := q.dispatcher } ∧
      q.store.tasks = p.store.tasks ∧
      (ns.map (·.chainTaskId)).Nodup ∧
      ∀ id, ∃ us : List StatusUpdate,
        (q.store.list? id).map (·.replicates) =
            (p.store.list? id).map (fun l =>
              l.replicates.map fun r => if r.wallet = wallet then r.updateAll us else r) ∧
          (id ∈ ns.map (·.chainTaskId) ↔ us ≠ []) ∧
          (us ≠ [] → ∃ r, p.store.replicate? id wallet = some r ∧ r.isRecoverable = true ∧
            (us = [.byPool p.now .recovering none] ∨
              ∃ u, p.Proven id r block u ∧ us = [u, .byPool p.now .recovering none] ∧
                (id ≠ "" → id ∈ q.queue.ids))) := by
  have hkept : p.WellKept := hp.wellKept
  have hdistinct : ((p.tasksOf wallet).map (·.chainTaskId)).Nodup :=
    hids.sublist (hkept.keyed.sublist_tasksOf _)
  have hrecovered : p.Recovered (p.noticedAll wallet block (p.tasksOf wallet)) :=
    .of_leads (p.leads_noticedAll wallet block _)
  refine ⟨_, _, p.attempt_missedNotifications block wallet, hrecovered.others, hrecovered.tasks,
    hdistinct.sublist (p.sublist_notices wallet block _), fun id => ?_⟩
  by_cases hid : id ∈ (p.tasksOf wallet).map (·.chainTaskId)
  · obtain ⟨t, ht, rfl⟩ := List.mem_map.1 hid
    obtain ⟨hwritten, habsorbs⟩ := written_noticedAll hkept wallet block hdistinct ht
    have hstored : p.store.task? t.chainTaskId = some t := task?_of_mem_tasksOf hkept.keyed ht
    refine ⟨p.entries t wallet block, ?_, mem_ids_notices hkept hids ht, fun hsome => ?_⟩
    · rw [hwritten, Option.map_map]
      refine Option.map_congr fun l hl => ?_
      exact ReplicateList.replicates_reportAll (hp.distinct _ l hl) wallet _
    · rcases p.entries_cases t wallet block with ⟨-, hentries⟩ | ⟨r, hr, -, hentries⟩
      · exact absurd hentries hsome
      · obtain ⟨hreplicate, hwallet, hrecoverable⟩ := resumable?_eq_some hr
        refine ⟨r, hwallet ▸ hreplicate, hrecoverable, hentries.imp_right ?_⟩
        rintro ⟨u, hu, hentries⟩
        obtain ⟨-, -, hproves⟩ := catchUp?_eq_some hu
        refine ⟨u, hproves.proven, hentries, fun hnamed => ?_⟩
        rcases habsorbs r u hr hu with hempty | hqueued | hunknown
        · exact absurd hempty hnamed
        · exact hqueued
        · unfold Store.task? at hunknown hstored
          rw [hrecovered.tasks, hstored] at hunknown
          exact absurd hunknown (by simp)
  · refine ⟨[], ?_, ?_, fun h => absurd rfl h⟩
    · rw [list?_noticedAll_of_notMem p wallet block hid]
      refine Option.map_congr fun l hl => ?_
      exact ReplicateList.replicates_reportAll (hp.distinct _ l hl) wallet []
    · refine iff_of_false (fun h => hid ?_) fun h => h rfl
      exact (p.sublist_notices wallet block _).subset h

/-- Two entries are written for the worker: the contribution that the chain proves, and the mark. -/
theorem recovery_writes_unreported :
    unreported.Reachable ∧ (unreported.registry.taskIds "0xa").Nodup ∧
    ∃ ns q us, unreported.attempt (missedNotifications 7 "0xa") = (.ok ns, q) ∧
      q.store.tasks = unreported.store.tasks ∧ "0x1" ∈ ns.map (·.chainTaskId) ∧
      (q.store.list? "0x1").map (·.replicates) = some [Replicate.updateAll us
        ((Replicate.fresh .epoch "0xa" "0x1").updateStatus (.byWorker .epoch .contributing none))] ∧
      us.map (·.status) = [.contributed, .recovering] ∧ "0x1" ∈ q.queue.ids := by
  have hreachable : unreported.Reachable := isNew_blank.reachable.after _
  have hids : (unreported.registry.taskIds "0xa").Nodup := by decide
  obtain ⟨ns, q, hanswer, -, htasks, -, hwritten⟩ := recovery_writes hreachable hids 7
  obtain ⟨us, hreplicates, htold, hus⟩ := hwritten "0x1"
  have hlist : (q.store.list? "0x1").map (·.replicates) = some [Replicate.updateAll us
      ((Replicate.fresh .epoch "0xa" "0x1").updateStatus
        (.byWorker .epoch .contributing none))] := hreplicates
  have hnext : (unreported.attempt (missedNotifications 7 "0xa")).2 = q := congrArg Prod.snd hanswer
  -- the whole history says which of the two cases it is
  have hhistory : (((unreported.attempt (missedNotifications 7 "0xa")).2.store.list? "0x1").map
      (·.replicates)).map (·.map fun r => r.history.map (·.status)) =
      some [[.created, .contributing, .contributed, .recovering]] := by decide
  rw [hnext, hlist] at hhistory
  have hstatuses : us.map (·.status) = [.contributed, .recovering] := by
    have hlast := List.head_eq_of_cons_eq (Option.some.inj hhistory)
    dsimp only at hlast
    rw [Replicate.history_updateAll, List.map_append] at hlast
    have hlast : [.created, .contributing] ++ us.map (·.status) =
        [.created, .contributing, .contributed, .recovering] := hlast
    exact List.append_cancel_left hlast
  have hsome : us ≠ [] := by
    rintro rfl
    exact absurd hstatuses (by simp)
  obtain ⟨r, -, -, hmark | ⟨u, -, -, hqueued⟩⟩ := hus hsome
  · rw [hmark] at hstatuses
    exact absurd hstatuses (by simp)
  · exact ⟨hreachable, hids, ns, q, us, hanswer, htasks, htold.2 hsome, hlist, hstatuses,
      hqueued (by decide)⟩

end Pool

end ComputePool
