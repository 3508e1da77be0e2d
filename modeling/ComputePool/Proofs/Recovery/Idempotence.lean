import ComputePool.Proofs.Recovery.Notice

/-!
# Telling a worker twice

A worker that asks twice what it missed, with nothing in between, is told the same twice. The first
time its replicates may be brought up to date and its tasks published; the second time only the
marks are left again.

What carries this is `Pool.IsTold`: about a task there is nothing left to report, and a publication
would be absorbed. Telling a worker about a task leaves it so (`Pool.isTold_noticed`), and telling
it about the other tasks keeps it so (`Pool.IsTold.congr`). Where it holds, telling changes nothing
but the mark (`Pool.IsTold.noticed`).
-/

namespace ComputePool

namespace Task

variable {t : Task} {r : Replicate}

/-- Whoever could be told something can be told after a report. -/
theorem canTell_updateStatus (h : t.canTell r = true) (u : StatusUpdate) :
    t.canTell (r.updateStatus u) = true := by
  unfold canTell at h ⊢
  have hhistory : (r.updateStatus u).history.isEmpty = false := by
    show (r.history ++ [u]).isEmpty = false
    simp
  rw [Bool.and_eq_true] at h
  rw [hhistory, h.2]
  rfl

/-- A report does not lose a task that was not lost. -/
theorem isLostFor_updateStatus (h : t.isLostFor r = false) (u : StatusUpdate) :
    t.isLostFor (r.updateStatus u) = false := by
  unfold isLostFor at h ⊢
  rw [Bool.or_eq_false_iff, Bool.and_eq_false_iff, Bool.not_eq_false'] at h ⊢
  refine ⟨h.1, h.2.imp_right fun hreached => ?_⟩
  rw [r.reached_updateStatus, hreached, Bool.true_or]

end Task

/-- The tasks are found in the order of their ids, and unknown ones are left out. -/
theorem Store.Keyed.sublist_tasksOf {s : Store} (h : s.Keyed) (ids : List String) :
    ((s.tasksOf ids).map (·.chainTaskId)).Sublist ids := by
  unfold Store.tasksOf
  induction ids with
  | nil => exact .slnil
  | cons id rest ih =>
    rw [List.filterMap_cons]
    cases ht : s.task? id with
    | none => exact ih.cons _
    | some t =>
      dsimp only
      rw [List.map_cons, h.task ht]
      exact ih.cons_cons _

namespace Pool

variable {p q : Pool} {t : Task} {r : Replicate} {id wallet : String} {block : UInt64}

/-! ## Publications that are absorbed -/

/-- A recovery takes no request out of the queue. -/
theorem Absorbs.leads (h : p.Absorbs id) (hp : p.WellKept)
    (hq : p.Leads Step.Recovers q) : q.Absorbs id := by
  have hkept : q.WellKept ∧ q.Absorbs id := by
    refine hq.keeps (P := fun q => q.WellKept ∧ q.Absorbs id) ?_ ⟨hp, h⟩
    rintro s hs q ⟨hq, h⟩
    refine ⟨hq.step s, h.imp_right (Or.imp ?_ ?_)⟩
    · intro hqueued
      cases s with
      | updateReplicate i wallet u => exact hqueued
      | publish i =>
        show id ∈ (q.after [.publish i]).queue.ids
        by_cases hi : q.Absorbs i
        · rw [hi.after_publish hq]
          exact hqueued
        · rw [ids_after_publish hi hq]
          exact List.mem_append_left _ hqueued
      | _ => exact hs.elim
    · intro hunknown
      unfold Store.task?
      rw [(Recovered.of_step hs q).tasks]
      exact hunknown
  exact hkept.2

/-! ## After a replicate was brought up to date -/

/-- After a report there is nothing left to report. -/
theorem catchUp?_reported (h : p.Recovered q) (block' : UInt64) :
    q.catchUp? t (r.reported (p.catchUp? t r block)) block' = none := by
  cases hu : p.catchUp? t r block with
  | none =>
    show q.catchUp? t r block' = none
    rw [catchUp?_congr h]
    exact catchUp?_eq_none hu block'
  | some u =>
    obtain ⟨htell, hlost, hproves⟩ := catchUp?_eq_some hu
    show q.catchUp? t (r.updateStatus u) block' = none
    rw [catchUp?_of_told q block' (Task.canTell_updateStatus htell u)
      (Task.isLostFor_updateStatus hlost u), r.lastRelevant?_updateStatus hproves.isRelevant.1]
    -- the status that was reported is not one that the chain can prove anything beyond
    cases hproves with
    | contributed phase => rw [phase]; rfl
    | revealed phase => rw [phase]; rfl
    | uploaded phase => rw [phase]; rfl

/-- What is told does not change by what was reported for it. -/
theorem advice_reported (t : Task) (r : Replicate) (block block' : UInt64) (p : Pool) :
    (p.advised t r block).advice t (r.reported (p.catchUp? t r block)) block' =
      p.advice t r block := by
  have hrecovered : p.Recovered (p.advised t r block) := .of_leads (p.leads_advised t r block)
  have hnone : (p.advised t r block).catchUp? t (r.reported (p.catchUp? t r block)) block' = none :=
    catchUp?_reported hrecovered block'
  have hstanding : (p.advised t r block).standing? t (r.reported (p.catchUp? t r block)) block' =
      p.standing? t r block := standing?_of_none hnone
  have hagreed : (p.advised t r block).isAgreed t (r.reported (p.catchUp? t r block)) block' =
      p.isAgreed t r block := by
    unfold isAgreed
    rw [caughtUp_of_none hnone, list?_advised]
    congr 1
    funext l
    exact hrecovered.hasConsensus l
  cases hu : p.catchUp? t r block with
  | none =>
    have hcompletion : (p.advised t r block).completion? r = p.completion? r := by
      unfold completion? Store.task?
      rw [hrecovered.tasks]
    rw [hu] at hstanding hagreed
    change (p.advised t r block).standing? t r block' = _ at hstanding
    change (p.advised t r block).isAgreed t r block' = _ at hagreed
    show (p.advised t r block).advice t r block' = _
    unfold advice
    rw [hcompletion, hstanding, hagreed]
  | some u =>
    obtain ⟨htell, hlost, hproves⟩ := catchUp?_eq_some hu
    obtain ⟨phase, hphase, hcompletion⟩ := hproves.phase
    rw [hu] at hstanding hagreed
    change (p.advised t r block).standing? t (r.updateStatus u) block' = _ at hstanding
    change (p.advised t r block).isAgreed t (r.updateStatus u) block' = _ at hagreed
    show (p.advised t r block).advice t (r.updateStatus u) block' = _
    rw [advice_of_phase p block htell hlost hphase hcompletion,
      advice_of_phase _ block' (Task.canTell_updateStatus htell u)
        (Task.isLostFor_updateStatus hlost u) hphase hcompletion, hstanding, hagreed]

/-! ## After a mark -/

section Marked

variable {l : ReplicateList} (hl : p.store.list? t.chainTaskId = some l)
  (hr : l.find? wallet = some r) (htell : t.canTell r = true)

include htell

/-- The mark hides nothing that was missed. -/
theorem catchUp?_marked (now : Instant) :
    (p.marked t.chainTaskId wallet).catchUp? t (r.marked now) block = p.catchUp? t r block := by
  have htell' : t.canTell (r.marked now) = true := Task.canTell_updateStatus htell _
  have hlost : t.isLostFor (r.marked now) = t.isLostFor r := by
    unfold Task.isLostFor
    rw [r.marked_reached now (by decide)]
  unfold catchUp?
  rw [htell', htell, hlost, r.marked_lastRelevant?]
  rfl

include hl hr

/-- What is told looks past the mark. -/
theorem advice_marked (hnone : p.catchUp? t r block = none) :
    (p.marked t.chainTaskId wallet).advice t (r.marked p.now) block = p.advice t r block := by
  have htell' : t.canTell (r.marked p.now) = true := Task.canTell_updateStatus htell _
  have hlost : t.isLostFor (r.marked p.now) = t.isLostFor r := by
    unfold Task.isLostFor
    rw [r.marked_reached p.now (by decide)]
  have hnone' : (p.marked t.chainTaskId wallet).catchUp? t (r.marked p.now) block = none :=
    (catchUp?_marked htell p.now).trans hnone
  have hstanding : (p.marked t.chainTaskId wallet).standing? t (r.marked p.now) block =
      p.standing? t r block := by
    rw [standing?_of_none hnone, standing?_of_none hnone', r.marked_lastRelevant?]
  have hagreed : (p.marked t.chainTaskId wallet).isAgreed t (r.marked p.now) block =
      p.isAgreed t r block := by
    unfold isAgreed
    rw [caughtUp_of_none hnone, caughtUp_of_none hnone', list?_marked, if_pos rfl, hl,
      Option.map_some, Option.any_some, Option.any_some]
    unfold hasConsensus
    have hid : (l.marked p.now wallet).chainTaskId = l.chainTaskId :=
      ReplicateList.report_chainTaskId wallet _ l
    rw [hid]
    show (p.chain.task? l.chainTaskId).any _ = _
    congr 1
    funext c
    exact ReplicateList.agreesWith_marked p.now hr c
  have hcompletion : (p.marked t.chainTaskId wallet).completion? (r.marked p.now) =
      p.completion? r := by
    unfold completion? Store.task?
    rw [r.marked_reached p.now (by decide), (store_marked wallet hl).1]
    rfl
  unfold advice
  rw [htell', htell, hlost, hstanding, hagreed, hcompletion]

end Marked

/-! ## Tasks about which the worker was told -/

/-- There is nothing left to report about the task, and a publication that telling the worker again
would make is absorbed. -/
def IsTold (t : Task) (wallet : String) (p : Pool) : Prop :=
  ∀ r, p.resumable? t wallet = some r → ∀ block, p.catchUp? t r block = none ∧
    (t.phase? = some .contribution → p.advice t r block = some .reveal → p.Absorbs t.chainTaskId)

/-- Whom recovery repaired it can still resume, as repaired. -/
theorem resumable?_advised (hr : p.resumable? t wallet = some r) (block : UInt64) :
    (p.advised t r block).resumable? t wallet = some (r.reported (p.catchUp? t r block)) := by
  obtain ⟨hstored, hwallet, hrecoverable⟩ := resumable?_eq_some hr
  have hreported : (p.advised t r block).store.replicate? t.chainTaskId wallet =
      some (r.reported (p.catchUp? t r block)) := by
    have hcaughtUp := replicate?_caughtUp block hstored
    unfold Store.replicate? at hcaughtUp ⊢
    rw [list?_advised, ← hwallet]
    exact hcaughtUp
  unfold resumable?
  rw [hreported]
  refine Option.filter_some_pos ?_
  cases hu : p.catchUp? t r block with
  | none => exact hrecoverable
  | some u =>
    obtain ⟨-, -, hproves⟩ := catchUp?_eq_some hu
    show (r.updateStatus u).isRecoverable = true
    unfold Replicate.isRecoverable
    rw [r.lastRelevant?_updateStatus hproves.isRelevant.1]
    exact hproves.isRelevant.2

/-- Whom recovery marked it can still resume, as marked. -/
theorem resumable?_marked (hr : p.resumable? t wallet = some r) :
    (p.marked t.chainTaskId wallet).resumable? t wallet = some (r.marked p.now) := by
  obtain ⟨hstored, hwallet, hrecoverable⟩ := resumable?_eq_some hr
  obtain ⟨l, hl, hfind⟩ := Option.bind_eq_some_iff.1 hstored
  rw [hwallet] at hfind
  have hmarked : (p.marked t.chainTaskId wallet).store.replicate? t.chainTaskId wallet =
      some (r.marked p.now) := by
    unfold Store.replicate?
    rw [list?_marked, if_pos rfl, hl, Option.map_some, Option.bind_some]
    exact (ReplicateList.find?_report _ hfind wallet).trans (if_pos rfl)
  unfold resumable?
  rw [hmarked]
  refine Option.filter_some_pos ?_
  unfold Replicate.isRecoverable at hrecoverable ⊢
  rw [r.marked_lastRelevant?]
  exact hrecoverable

/-- What was reported and published need not be reported or published again. -/
theorem isTold_advised (hp : p.WellKept) (hr : p.resumable? t wallet = some r) (block : UInt64) :
    (p.advised t r block).IsTold t wallet ∧
      ∀ block', (p.advised t r block).notice? t wallet block' = p.notice? t wallet block := by
  have hrecovered : p.Recovered (p.advised t r block) := .of_leads (p.leads_advised t r block)
  have hr' := resumable?_advised hr block
  refine ⟨fun r' h block' => ⟨?_, fun hphase hreveal => ?_⟩, fun block' => ?_⟩
  · obtain rfl := Option.some.inj (hr'.symm.trans h)
    exact catchUp?_reported hrecovered block'
  · obtain rfl := Option.some.inj (hr'.symm.trans h)
    rw [advice_reported] at hreveal
    unfold advised
    rw [if_pos ⟨hphase, hreveal⟩]
    exact absorbs_after_publish t.chainTaskId (hp.leads (p.leads_caughtUp t r block))
  · unfold notice?
    rw [hr', hr, Option.bind_some, Option.bind_some, advice_reported, hrecovered.signer]

namespace IsTold

/-- What a recovery does for other tasks keeps that the worker was told about this one. -/
theorem congr (h : p.IsTold t wallet) (hp : p.WellKept) (hq : p.Leads Step.Recovers q)
    (hlist : q.store.list? t.chainTaskId = p.store.list? t.chainTaskId) : q.IsTold t wallet := by
  have hrecovered : p.Recovered q := .of_leads hq
  intro r hr block
  rw [resumable?_congr hlist] at hr
  obtain ⟨hnone, habsorbs⟩ := h r hr block
  rw [catchUp?_congr hrecovered, advice_congr hrecovered hlist]
  exact ⟨hnone, fun hphase hreveal => (habsorbs hphase hreveal).leads hp hq⟩

/-- A worker that was told gets the mark, and nothing else happens. -/
theorem noticed (h : p.IsTold t wallet) (hp : p.WellKept) (block : UInt64) :
    p.noticed t wallet block =
      if (p.notice? t wallet block).isSome then p.marked t.chainTaskId wallet else p := by
  unfold Pool.noticed notice?
  cases hr : p.resumable? t wallet with
  | none => rfl
  | some r =>
    obtain ⟨hnone, habsorbs⟩ := h r hr block
    have hadvised : p.advised t r block = p := by
      unfold advised
      rw [caughtUp_of_none hnone]
      split
      · next hreveal => exact (habsorbs hreveal.1 hreveal.2).after_publish hp
      · rfl
    dsimp only
    rw [hadvised, Option.bind_some, Option.isSome_map]

/-- The mark makes no difference to what is told. -/
theorem marked (h : p.IsTold t wallet) (hp : p.WellKept)
    (hsome : (p.notice? t wallet block).isSome) :
    (p.marked t.chainTaskId wallet).IsTold t wallet ∧
      ∀ block', (p.marked t.chainTaskId wallet).notice? t wallet block' =
        p.notice? t wallet block' := by
  obtain ⟨n, hn⟩ := Option.isSome_iff_exists.1 hsome
  obtain ⟨r, hr, hn⟩ := Option.bind_eq_some_iff.1 hn
  obtain ⟨i, hi, -⟩ := Option.map_eq_some_iff.1 hn
  have htell : t.canTell r = true := canTell_of_advice hi
  obtain ⟨hstored, hwallet, -⟩ := resumable?_eq_some hr
  obtain ⟨l, hl, hfind⟩ := Option.bind_eq_some_iff.1 hstored
  rw [hwallet] at hfind
  have hr' := resumable?_marked hr
  have hadvice : ∀ block', (p.marked t.chainTaskId wallet).advice t (r.marked p.now) block' =
      p.advice t r block' := fun block' => advice_marked hl hfind htell (h r hr block').1
  refine ⟨fun r' hmarked block' => ?_, fun block' => ?_⟩
  · obtain rfl := Option.some.inj (hr'.symm.trans hmarked)
    obtain ⟨hnone, habsorbs⟩ := h r hr block'
    rw [catchUp?_marked htell p.now, hadvice]
    exact ⟨hnone, fun hphase hreveal =>
      (habsorbs hphase hreveal).leads hp (p.leads_marked t.chainTaskId wallet)⟩
  · unfold notice?
    rw [hr', hr, Option.bind_some, Option.bind_some, hadvice]
    rfl

end IsTold

/-- Whoever was told about a task would be told the same again. -/
theorem isTold_noticed (hp : p.WellKept) (t : Task) (wallet : String) (block : UInt64) :
    (p.noticed t wallet block).IsTold t wallet ∧
      ∀ block', (p.noticed t wallet block).notice? t wallet block' = p.notice? t wallet block := by
  cases hr : p.resumable? t wallet with
  | none =>
    have hnoticed : p.noticed t wallet block = p := by
      unfold noticed
      rw [hr]
    have hnotice : ∀ block', p.notice? t wallet block' = none := fun block' => by
      unfold notice?
      rw [hr]
      rfl
    rw [hnoticed]
    exact ⟨fun r h => absurd (hr.symm.trans h) (by simp),
      fun block' => (hnotice block').trans (hnotice block).symm⟩
  | some r =>
    obtain ⟨htold, hsame⟩ := isTold_advised hp hr block
    unfold noticed
    rw [hr]
    dsimp only
    split
    · next hadvice =>
      have hnotice : ((p.advised t r block).notice? t wallet block).isSome := by
        rw [hsame]
        unfold notice?
        rw [hr, Option.bind_some, Option.isSome_map]
        exact hadvice
      obtain ⟨htold', hsame'⟩ := htold.marked (hp.leads (p.leads_advised t r block)) hnotice
      exact ⟨htold', fun block' => (hsame' block').trans (hsame block')⟩
    · exact ⟨htold, hsame⟩

/-! ## All tasks of a worker -/

/-- The list of a task that is not gone through stays as it is. -/
theorem list?_noticedAll_of_notMem (p : Pool) (wallet : String) (block : UInt64) {ts : List Task}
    (hid : id ∉ ts.map (·.chainTaskId)) :
    (p.noticedAll wallet block ts).store.list? id = p.store.list? id := by
  induction ts generalizing p with
  | nil => rfl
  | cons t rest ih =>
    rw [List.map_cons, List.mem_cons, not_or] at hid
    exact (ih (p.noticed t wallet block) hid.2).trans
      (p.list?_noticed_of_ne wallet block (Ne.symm hid.1))

/-- What a worker is told about several tasks is what it would be told about each of them first,
and about each it would be told the same again. -/
theorem isTold_noticedAll (hp : p.WellKept) (wallet : String) (block : UInt64) {ts : List Task}
    (hids : (ts.map (·.chainTaskId)).Nodup) :
    p.notices wallet block ts = ts.filterMap (p.notice? · wallet block) ∧
      ∀ t ∈ ts, (p.noticedAll wallet block ts).IsTold t wallet ∧
        ∀ block', (p.noticedAll wallet block ts).notice? t wallet block' =
          p.notice? t wallet block := by
  induction ts generalizing p with
  | nil => exact ⟨rfl, fun t ht => absurd ht List.not_mem_nil⟩
  | cons t rest ih =>
    rw [List.map_cons, List.nodup_cons] at hids
    have hfirst := p.leads_noticed t wallet block
    have hp' : (p.noticed t wallet block).WellKept := hp.leads hfirst
    obtain ⟨hnotices, hrest⟩ := ih hp' hids.2
    -- what is told about the others does not depend on what was told about the first
    have hsame : ∀ u ∈ rest, (p.noticed t wallet block).notice? u wallet block =
        p.notice? u wallet block := fun u hu =>
      notice?_congr (.of_leads hfirst) (p.list?_noticed_of_ne wallet block fun h =>
        hids.1 (h ▸ List.mem_map_of_mem hu))
    refine ⟨?_, fun u hu => ?_⟩
    · rw [notices_cons, hnotices, List.filterMap_congr hsame, List.filterMap_cons]
      cases p.notice? t wallet block with
      | none => rfl
      | some n => rfl
    · rcases List.mem_cons.1 hu with rfl | hu
      · -- nothing that is told about the others undoes what was done for the first
        obtain ⟨htold, hagain⟩ := isTold_noticed hp u wallet block
        have hleads := (p.noticed u wallet block).leads_noticedAll wallet block rest
        have hlist := (p.noticed u wallet block).list?_noticedAll_of_notMem wallet block hids.1
        exact ⟨htold.congr hp' hleads hlist, fun block' =>
          (notice?_congr (.of_leads hleads) hlist).trans (hagain block')⟩
      · obtain ⟨htold, hagain⟩ := hrest u hu
        exact ⟨htold, fun block' => (hagain block').trans (hsame u hu)⟩

/-- Each task is told about once at most. -/
theorem sublist_notices (p : Pool) (wallet : String) (block : UInt64) (ts : List Task) :
    ((p.notices wallet block ts).map (·.chainTaskId)).Sublist (ts.map (·.chainTaskId)) := by
  induction ts generalizing p with
  | nil => exact .slnil
  | cons t rest ih =>
    have hrest := ih (p.noticed t wallet block)
    rw [notices_cons]
    cases hn : p.notice? t wallet block with
    | none => exact hrest.cons _
    | some n =>
      rw [List.map_cons, ← (notice?_chainTaskId hn).1]
      exact hrest.cons_cons _

/-- A worker that was told about all its tasks gets a mark for each that it is told about again,
and nothing else happens. -/
theorem noticedAll_of_isTold (hp : p.WellKept) (wallet : String) (block : UInt64) {ts : List Task}
    (hids : (ts.map (·.chainTaskId)).Nodup) (htold : ∀ t ∈ ts, p.IsTold t wallet) :
    p.noticedAll wallet block ts = { p with store := (p.noticedAll wallet block ts).store } ∧
      ∀ id, (p.noticedAll wallet block ts).store.list? id =
        if id ∈ (p.notices wallet block ts).map (·.chainTaskId) then
          (p.store.list? id).map (·.marked p.now wallet)
        else p.store.list? id := by
  induction ts generalizing p with
  | nil => exact ⟨rfl, fun id => (if_neg List.not_mem_nil).symm⟩
  | cons t rest ih =>
    rw [List.map_cons, List.nodup_cons] at hids
    have hnoticed := (htold t List.mem_cons_self).noticed hp block
    have hfirst := p.leads_noticed t wallet block
    obtain ⟨hothers, hlists⟩ := ih (hp.leads hfirst) hids.2 fun u hu =>
      (htold u (List.mem_cons_of_mem _ hu)).congr hp hfirst
        (p.list?_noticed_of_ne wallet block fun h => hids.1 (h ▸ List.mem_map_of_mem hu))
    have hnow : (p.noticed t wallet block).now = p.now := (p.recovered_noticed t wallet block).now
    have hstore : p.noticed t wallet block =
        { p with store := (p.noticed t wallet block).store } := by
      rw [hnoticed]
      split
      · rfl
      · rfl
    refine ⟨?_, fun id => ?_⟩
    · set s := (p.noticed t wallet block).noticedAll wallet block rest
      exact hothers.trans (congrArg (fun q : Pool => { q with store := s.store }) hstore)
    · show ((p.noticed t wallet block).noticedAll wallet block rest).store.list? id = _
      rw [hlists id, hnow]
      cases hn : p.notice? t wallet block with
      | none =>
        rw [hn] at hnoticed
        have hnothing : p.noticed t wallet block = p := hnoticed
        rw [notices_cons, hn, hnothing, Option.toList_none, List.nil_append]
      | some n =>
        rw [hn] at hnoticed
        have hmarked : p.noticed t wallet block = p.marked t.chainTaskId wallet := hnoticed
        have hlist : (p.noticed t wallet block).store.list? id =
            if t.chainTaskId = id then (p.store.list? id).map (·.marked p.now wallet)
            else p.store.list? id := by
          rw [hmarked, list?_marked]
        have htold : id ∈ (p.notices wallet block (t :: rest)).map (·.chainTaskId) ↔
            id = t.chainTaskId ∨
              id ∈ ((p.noticed t wallet block).notices wallet block rest).map (·.chainTaskId) := by
          rw [notices_cons, hn, Option.toList_some, List.singleton_append, List.map_cons,
            List.mem_cons, (notice?_chainTaskId hn).1]
        rw [hlist]
        by_cases hid : t.chainTaskId = id
        · -- the others are told about under other ids
          subst hid
          have hout := fun h => hids.1 (((p.noticed t wallet block).sublist_notices wallet block
            rest).subset h)
          rw [if_neg hout, if_pos rfl, if_pos (htold.2 (.inl rfl))]
        · rw [if_neg hid]
          exact (if_congr (htold.trans (or_iff_right (Ne.symm hid))) rfl rfl).symm

/-! ## The request -/

/-- Recovery is idempotent: asked a second time with nothing in between, at whatever block, it gives
the same notifications, and leaves one mark on the replicate of each of them and everything else as
it was. -/
theorem recovery_idempotent (hp : p.Reachable) (hids : (p.registry.taskIds wallet).Nodup)
    (block block' : UInt64) :
    ∃ ns q s, p.attempt (missedNotifications block wallet) = (.ok ns, q) ∧
      q.attempt (missedNotifications block' wallet) = (.ok ns, s) ∧
      s = { q with store := s.store } ∧ s.store.tasks = q.store.tasks ∧
      (ns.map (·.chainTaskId)).Nodup ∧
      (∀ n ∈ ns, (q.store.replicate? n.chainTaskId wallet).isSome) ∧
      ∀ id, s.store.list? id =
        if id ∈ ns.map (·.chainTaskId) then (q.store.list? id).map (·.marked q.now wallet)
        else q.store.list? id := by
  have hdistinct : ((p.tasksOf wallet).map (·.chainTaskId)).Nodup :=
    hids.sublist (hp.wellKept.keyed.sublist_tasksOf _)
  obtain ⟨hnotices, htold⟩ := isTold_noticedAll hp.wellKept wallet block hdistinct
  have hleads := p.leads_noticedAll wallet block (p.tasksOf wallet)
  set q := p.noticedAll wallet block (p.tasksOf wallet) with hq
  have hkept : q.WellKept := hp.wellKept.leads hleads
  have hrecovered : p.Recovered q := .of_leads hleads
  have htasks : q.tasksOf wallet = p.tasksOf wallet := by
    unfold tasksOf Store.tasksOf Store.task?
    rw [hrecovered.registry, hrecovered.tasks]
  have hagain : q.notices wallet block' (p.tasksOf wallet) =
      p.notices wallet block (p.tasksOf wallet) := by
    rw [(isTold_noticedAll hkept wallet block' hdistinct).1, hnotices]
    exact List.filterMap_congr fun t ht => (htold t ht).2 block'
  obtain ⟨hothers, hlists⟩ :=
    noticedAll_of_isTold hkept wallet block' hdistinct fun t ht => (htold t ht).1
  have hrecovered' := Recovered.of_leads (q.leads_noticedAll wallet block' (p.tasksOf wallet))
  refine ⟨_, q, _, p.attempt_missedNotifications block wallet, ?_, hothers, hrecovered'.tasks,
    hdistinct.sublist (p.sublist_notices wallet block _), ?_, ?_⟩
  · rw [attempt_missedNotifications, htasks, hagain]
  · intro n hn
    rw [hnotices] at hn
    obtain ⟨t, ht, hn⟩ := List.mem_filterMap.1 hn
    exact (notice?_chainTaskId (((htold t ht).2 block).trans hn)).2
  · rw [← hagain]
    exact hlists

/-- The worker is told to reveal, and told so again, at a later block and with a second mark. -/
theorem recovery_idempotent_unreported : unreported.Reachable ∧
    (unreported.registry.taskIds "0xa").Nodup ∧
    ∃ ns q s, unreported.attempt (missedNotifications 7 "0xa") = (.ok ns, q) ∧
      q.attempt (missedNotifications 8 "0xa") = (.ok ns, s) ∧
      ns.map (fun n => (n.chainTaskId, n.instruction)) = [("0x1", .reveal)] ∧
      s.store.list? "0x1" = (q.store.list? "0x1").map (·.marked q.now "0xa") := by
  have hreachable : unreported.Reachable := isNew_blank.reachable.after _
  have hids : (unreported.registry.taskIds "0xa").Nodup := by decide
  obtain ⟨ns, q, s, hfirst, hsecond, -, -, -, -, hlists⟩ := recovery_idempotent hreachable hids 7 8
  have htold : (unreported.attempt (missedNotifications 7 "0xa")).1.toOption.map
      (·.map fun n => (n.chainTaskId, n.instruction)) = some [("0x1", .reveal)] := by decide
  rw [hfirst] at htold
  have hns : ns.map (fun n => (n.chainTaskId, n.instruction)) = [("0x1", .reveal)] :=
    Option.some.inj htold
  have hid : "0x1" ∈ ns.map (·.chainTaskId) := by
    have hmem := congrArg (·.map Prod.fst) hns
    rw [List.map_map] at hmem
    exact hmem ▸ List.mem_singleton.2 rfl
  exact ⟨hreachable, hids, ns, q, s, hfirst, hsecond, hns, (hlists "0x1").trans (if_pos hid)⟩

end Pool

end ComputePool
