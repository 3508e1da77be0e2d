import ComputePool.Proofs.Admission
import ComputePool.Proofs.Mark
import ComputePool.Proofs.Runs

/-!
# Who takes part in a task

A list holds at most one replicate of each wallet. No write checks this over the whole list: an
addition only looks whether its own wallet is there, and a report changes the first replicate that
it finds. Since lists begin empty, that is enough, whatever the steps are and in whatever order they
come (`Pool.Reachable.distinct`). From then on "the replicate of a wallet" is well said: a search
finds every replicate of the list, and a report changes every replicate of its wallet.

What a step may do to one list is told once, by `Step.OnList`. Services add replicates and report on
them, and take none away, so what every write but a removal keeps is kept by all that happens
(`Event.keeps_records`). Who takes part is changed by requests for work alone
(`Event.members_apply`).
-/

namespace ComputePool

namespace ReplicateList

variable {l : ReplicateList} {wallet : String} {r : Replicate}

/-- The newcomer stands at the end of the list. -/
theorem wallets_plus (l : ReplicateList) (now : Instant) (wallet id : String) :
    (l.plus now wallet id).wallets = l.wallets ++ [wallet] :=
  List.map_append

/-- Whoever is in the list is found as before when somebody is added. -/
theorem find?_plus (hr : l.find? wallet = some r) (now : Instant) (newcomer id : String) :
    (l.plus now newcomer id).find? wallet = some r := by
  unfold find? plus at *
  rw [List.find?_append, hr, Option.some_or]

/-- Who is not in the list may be added without being there twice. -/
theorem nodup_plus (h : l.wallets.Nodup) (hw : l.hasWorker wallet = false) (now : Instant)
    (id : String) : (l.plus now wallet id).wallets.Nodup := by
  have hnew : wallet ∉ l.wallets := fun hmem => by
    rw [hasWorker_iff.2 hmem] at hw
    exact absurd hw (by simp)
  rw [wallets_plus]
  exact List.nodup_append.2 ⟨h, List.nodup_singleton wallet, fun a ha b hb hab =>
    hnew (List.mem_singleton.1 hb ▸ hab ▸ ha)⟩

/-- A removal leaves the others in their order. -/
theorem wallets_without_sublist (wallet : String) (l : ReplicateList) :
    (l.without wallet).wallets.Sublist l.wallets := by
  unfold without
  split
  · exact List.filter_sublist.map _
  · exact .refl _

/-! ## Who revealed -/

/-- Where nobody revealed the count is zero. -/
theorem reachedCount_eq_zero (h : ∀ r ∈ l.replicates, r.reached .revealed = false) :
    l.reachedCount [.revealed] = 0 := by
  have hnone : (l.replicates.filter fun r => [ReplicateStatus.revealed].any r.reached) = [] := by
    refine List.filter_eq_nil_iff.2 fun r hr => ?_
    rw [List.any_cons, List.any_nil, Bool.or_false, h r hr]
    exact Bool.false_ne_true
  unfold reachedCount
  rw [hnone]
  rfl

/-- One who revealed makes the count positive. -/
theorem reachedCount_ne_zero {r : Replicate} (hr : r ∈ l.replicates)
    (hreached : r.reached .revealed = true) : l.reachedCount [.revealed] ≠ 0 := by
  have hmem : r.wallet ∈ ((l.replicates.filter fun r =>
      [ReplicateStatus.revealed].any r.reached).map (·.wallet)).eraseDups := by
    rw [List.mem_eraseDups]
    refine List.mem_map_of_mem (List.mem_filter.2 ⟨hr, ?_⟩)
    rw [List.any_cons, hreached, Bool.true_or]
  unfold reachedCount
  exact Nat.ne_of_gt (List.length_pos_of_mem hmem)

/-! ## Lists without duplicates -/

/-- A search for the wallet of a replicate finds that replicate. -/
theorem find?_of_mem (h : l.wallets.Nodup) (hr : r ∈ l.replicates) :
    l.find? r.wallet = some r := by
  have hin : ∀ rs : List Replicate, (rs.map (·.wallet)).Nodup → r ∈ rs →
      rs.find? (·.wallet == r.wallet) = some r := by
    intro rs hrs hmem
    induction rs with
    | nil => exact absurd hmem List.not_mem_nil
    | cons first rest ih =>
      rw [List.map_cons, List.nodup_cons] at hrs
      rcases List.mem_cons.1 hmem with rfl | hrest
      · exact List.find?_cons_of_pos (beq_self_eq_true _)
      · have hne : first.wallet ≠ r.wallet := fun heq => hrs.1 (heq ▸ List.mem_map_of_mem hrest)
        rw [List.find?_cons_of_neg (by simpa using hne)]
        exact ih hrs.2 hrest
  exact hin l.replicates h hr

/-- A report changes all replicates of its wallet. -/
theorem replicates_report (h : l.wallets.Nodup) (wallet : String) (u : StatusUpdate) :
    (l.report wallet u).replicates =
      l.replicates.map fun r => if r.wallet = wallet then r.updateStatus u else r := by
  have hothers : ∀ rs : List Replicate, (∀ r ∈ rs, r.wallet ≠ wallet) →
      (rs.map fun r => if r.wallet = wallet then r.updateStatus u else r) = rs := fun rs hrs =>
    (List.map_congr_left fun r hr => if_neg (hrs r hr)).trans (List.map_id' rs)
  cases hfind : l.find? wallet with
  | none =>
    have hunknown : ∀ r ∈ l.replicates, r.wallet ≠ wallet := fun r hr => by
      simpa using List.find?_eq_none.1 hfind r hr
    rw [hothers _ hunknown, report_of_absent (hasWorker_eq_false_iff.2 hfind)]
  | some r =>
    obtain ⟨hr, before, after, hbefore, hl, -, hreport⟩ := report_eq_append hfind
    have hafter : ∀ b ∈ after, b.wallet ≠ wallet := fun b hb heq => by
      unfold wallets at h
      rw [hl, List.map_append, List.map_cons, List.nodup_append] at h
      exact (List.nodup_cons.1 h.2.1).1 (hr.trans heq.symm ▸ List.mem_map_of_mem hb)
    rw [hreport u, hl, List.map_append, List.map_cons, hothers before hbefore,
      hothers after hafter, if_pos hr]

/-- The replicates after a report of a wallet. -/
theorem mem_report (h : l.wallets.Nodup) {wallet : String} {u : StatusUpdate} {r : Replicate} :
    r ∈ (l.report wallet u).replicates ↔
      ∃ r₀ ∈ l.replicates, (if r₀.wallet = wallet then r₀.updateStatus u else r₀) = r := by
  rw [replicates_report h, List.mem_map]

/-- What holds of the replicate that is reported on, once it is, and of those of the others holds of
all replicates after the report. -/
theorem forall_report (h : l.wallets.Nodup) {wallet : String} {r : Replicate}
    (hfind : l.find? wallet = some r) {u : StatusUpdate} {P : Replicate → Prop}
    (hself : P (r.updateStatus u)) (hothers : ∀ r' ∈ l.replicates, r'.wallet ≠ wallet → P r') :
    ∀ r' ∈ (l.report wallet u).replicates, P r' := by
  intro r' hr'
  obtain ⟨r₀, hr₀, rfl⟩ := (mem_report h).1 hr'
  split
  · next hwallet =>
    -- nobody takes part twice
    have hfind₀ := find?_of_mem h hr₀
    rw [hwallet, hfind] at hfind₀
    rw [← Option.some.inj hfind₀]
    exact hself
  · next hwallet => exact hothers r₀ hr₀ hwallet

/-- The replicate that was reported on is there. -/
theorem mem_report_of_find? (h : l.wallets.Nodup) {wallet : String} {r : Replicate}
    (hfind : l.find? wallet = some r) (u : StatusUpdate) :
    r.updateStatus u ∈ (l.report wallet u).replicates := by
  have hwallet : r.wallet = wallet := by simpa using List.find?_some hfind
  exact (mem_report h).2 ⟨r, List.mem_of_find?_eq_some hfind, if_pos hwallet⟩

end ReplicateList

/-! ## One list under single steps -/

/-- What a step does to the list of a task. -/
inductive Step.OnList (s : Step) (p : Pool) (id : String) : Prop where
  | kept (same : (s.apply p).store.list? id = p.store.list? id)
  | created (step : s = .createList id) (unknown : p.store.list? id = none)
      (after : (s.apply p).store.list? id = some (.empty id))
  | added (read : ReplicateList) (wallet : String) (l : ReplicateList)
      (step : s = .addReplicate read wallet) (of : read.chainTaskId = id)
      (before : p.store.list? id = some l) (absent : l.hasWorker wallet = false)
      (after : (s.apply p).store.list? id = some (l.plus p.now wallet id))
      (version : l.version = read.version)
  | reported (wallet : String) (u : StatusUpdate) (l : ReplicateList)
      (step : s = .updateReplicate id wallet u) (before : p.store.list? id = some l)
      (after : (s.apply p).store.list? id = some (l.report wallet u))
  | removed (wallet : String) (l : ReplicateList) (step : s = .removeReplicate id wallet)
      (before : p.store.list? id = some l)
      (after : (s.apply p).store.list? id = some (l.without wallet))

/-- Every step does one of these to a list. -/
theorem Step.onList (s : Step) (p : Pool) (id : String) : s.OnList p id := by
  by_cases hlists : s.WritesLists
  · cases s with
    | createList i =>
      have hlist := p.createList_list? i id
      by_cases hid : i = id
      · subst hid
        rw [if_pos rfl] at hlist
        cases hl : p.store.list? i with
        | none =>
          rw [hl] at hlist
          exact .created rfl hl hlist
        | some l =>
          rw [hl] at hlist
          exact .kept (hlist.trans hl.symm)
      · exact .kept (hlist.trans (if_neg hid))
    | addReplicate read wallet =>
      rcases p.addReplicate_cases read wallet with hp | ⟨l, hl, hversion, hw, hp⟩
      · exact .kept (congrArg (·.store.list? id) hp)
      · have hlist := (congrArg (·.store.list? id) hp).trans (Store.list?_setList ..)
        by_cases hid : read.chainTaskId = id
        · subst hid
          exact .added read wallet l rfl rfl hl hw (hlist.trans (if_pos rfl)) hversion
        · exact .kept (hlist.trans (if_neg hid))
    | updateReplicate i wallet u =>
      have hlist := p.store.list?_updateReplicate i wallet u id
      by_cases hid : i = id
      · subst hid
        rw [if_pos rfl] at hlist
        cases hl : p.store.list? i with
        | none =>
          rw [hl] at hlist
          exact .kept (hlist.trans hl.symm)
        | some l =>
          rw [hl] at hlist
          exact .reported wallet u l rfl hl hlist
      · exact .kept (hlist.trans (if_neg hid))
    | removeReplicate i wallet =>
      have hlist := p.store.list?_removeReplicate i wallet id
      by_cases hid : i = id
      · subst hid
        rw [if_pos rfl] at hlist
        cases hl : p.store.list? i with
        | none =>
          rw [hl] at hlist
          exact .kept (hlist.trans hl.symm)
        | some l =>
          rw [hl] at hlist
          exact .removed wallet l rfl hl hlist
      · exact .kept (hlist.trans (if_neg hid))
    | _ => exact hlists.elim
  · refine .kept ?_
    unfold Store.list?
    rw [Step.lists_apply hlists]

/-! ## All lists -/

/-- No list holds two replicates of one wallet. -/
def Store.Distinct (s : Store) : Prop :=
  ∀ (id : String) (l : ReplicateList), s.list? id = some l → l.wallets.Nodup

namespace Store.Distinct

theorem empty : Store.empty.Distinct :=
  fun _ _ h => absurd h (by simp [Store.list?, Store.empty])

/-- Every step keeps participants apart, since an addition looks for the wallet first. -/
theorem step {p : Pool} (h : p.store.Distinct) (s : Step) : (s.apply p).store.Distinct := by
  intro id l hl
  cases s.onList p id with
  | kept same => exact h id l (same.symm.trans hl)
  | created step unknown after =>
    obtain rfl := Option.some.inj (after.symm.trans hl)
    exact List.nodup_nil
  | added read wallet l₀ step of before absent after =>
    obtain rfl := Option.some.inj (after.symm.trans hl)
    exact ReplicateList.nodup_plus (h id l₀ before) absent p.now id
  | reported wallet u l₀ step before after =>
    obtain rfl := Option.some.inj (after.symm.trans hl)
    rw [ReplicateList.wallets_report]
    exact h id l₀ before
  | removed wallet l₀ step before after =>
    obtain rfl := Option.some.inj (after.symm.trans hl)
    exact (h id l₀ before).sublist (l₀.wallets_without_sublist wallet)

/-- Nobody takes part twice, whatever steps are taken. -/
theorem leads {S : Step → Prop} {p q : Pool} (h : p.store.Distinct) (hq : p.Leads S q) :
    q.store.Distinct :=
  hq.keeps (P := fun q => q.store.Distinct) (fun s _ _ hq => hq.step s) h

end Store.Distinct

/-- Nobody takes part twice in a task, in any pool that is run. -/
theorem Pool.Reachable.distinct {p : Pool} (h : p.Reachable) : p.store.Distinct := by
  obtain ⟨start, hnew, hleads⟩ := h
  have hstart : start.store.Distinct := by
    rw [hnew.store]
    exact Store.Distinct.empty
  exact hstart.leads hleads

/-! ## Those who take part -/

namespace Store

variable {s s' : Store} {id : String}

/-- The wallets of those who take part in a task. -/
def members (id : String) (s : Store) : List String := ((s.list? id).map (·.wallets)).getD []

/-- Who takes part is read off the list of the task. -/
theorem members_of_list? {l : ReplicateList} (h : s.list? id = some l) :
    s.members id = l.wallets := by
  unfold members
  rw [h]
  rfl

theorem members_congr (h : s'.list? id = s.list? id) : s'.members id = s.members id := by
  unfold members
  rw [h]

/-- Who takes part is in the list, if there is one. -/
theorem mem_members_iff {wallet : String} :
    wallet ∈ s.members id ↔ (s.list? id).any (·.hasWorker wallet) = true := by
  unfold members
  cases s.list? id with
  | none => simp
  | some l => exact ReplicateList.hasWorker_iff.symm

/-- Who takes part has a replicate. -/
theorem exists_replicate?_of_mem {wallet : String} (h : wallet ∈ s.members id) :
    ∃ r, s.replicate? id wallet = some r := by
  obtain ⟨l, hl, hw⟩ := Option.any_eq_true _ _ |>.1 (mem_members_iff.1 h)
  obtain ⟨r, hr⟩ := Option.isSome_iff_exists.1 hw
  exact ⟨r, Option.bind_eq_some_iff.2 ⟨l, hl, hr⟩⟩

/-- Who has a replicate takes part. -/
theorem mem_members_of_replicate? {wallet : String} {r : Replicate}
    (h : s.replicate? id wallet = some r) : wallet ∈ s.members id := by
  obtain ⟨l, hl, hr⟩ := Option.bind_eq_some_iff.1 h
  refine mem_members_iff.2 (Option.any_eq_true _ _ |>.2 ⟨l, hl, ?_⟩)
  exact Option.isSome_iff_exists.2 ⟨r, hr⟩

end Store

/-- The step adds a replicate or removes one. -/
def Step.Recruits : Step → Prop
  | .addReplicate .. | .removeReplicate .. => True
  | _ => False

/-- Updates neither admit anybody nor remove anybody. -/
theorem Step.Updates.not_recruits {s : Step} (h : s.Updates) : ¬ s.Recruits := by
  cases s with
  | addReplicate read wallet => exact h.elim
  | removeReplicate id wallet => exact h.elim
  | _ => exact not_false

/-- Recoveries neither admit anybody nor remove anybody. -/
theorem Step.Recovers.not_recruits {s : Step} (h : s.Recovers) : ¬ s.Recruits := by
  cases s with
  | addReplicate read wallet => exact h.elim
  | removeReplicate id wallet => exact h.elim
  | _ => exact not_false

/-- Who takes part is changed by additions and removals alone. -/
theorem Step.members_apply {s : Step} (h : ¬ s.Recruits) (p : Pool) (id : String) :
    (s.apply p).store.members id = p.store.members id := by
  cases s.onList p id with
  | kept same => exact Store.members_congr same
  | created step unknown after =>
    rw [Store.members_of_list? after, Store.members, unknown]
    rfl
  | added read wallet l step of before absent after => exact absurd (step ▸ trivial) h
  | reported wallet u l step before after =>
    rw [Store.members_of_list? after, Store.members_of_list? before,
      ReplicateList.wallets_report]
  | removed wallet l step before after => exact absurd (step ▸ trivial) h

namespace Event

/-- The event is no request for work, and adds and removes no replicate by itself. -/
def KeepsMembers : Event → Prop
  | .step s => ¬ s.Recruits
  | .find .. => False
  | _ => True

/-- Apart from requests for work, events change nobody's part in a task. -/
theorem members_apply {e : Event} (he : e.KeepsMembers) (p : Pool) (id : String) :
    (e.apply p).store.members id = p.store.members id := by
  have hsteps : ∀ s, e.steps s → ¬ s.Recruits := by
    intro s hs
    cases e with
    | step s' =>
      obtain rfl : s = s' := hs
      exact he
    | update i => exact Step.Updates.not_recruits hs
    | serve i =>
      rcases hs with hs | hs
      · exact hs.not_recruits
      · exact hs.recovers.not_recruits
    | find lastBlock wallet => exact he.elim
    | recover block wallet => exact Step.Recovers.not_recruits hs
    | detect d => exact (Step.Publishes.recovers hs).not_recruits
  exact (e.leads p).unchanged (f := fun q => q.store.members id)
    fun s hs q => s.members_apply (hsteps s hs) q id

end Event

/-! ## No service takes a replicate away -/

section Kept

variable {P : Store → Prop} {id : String}
  (hstep : ∀ (s : Step) (p : Pool), (∀ wallet, s ≠ .removeReplicate id wallet) →
    P p.store → P (s.apply p).store)

include hstep

/-- What every step but a removal from the list of a task keeps, every event but such a removal
keeps: a replicate that was added for a worker is never taken back. -/
theorem Event.keeps_records {p : Pool} (hk : p.store.Keyed) {e : Event}
    (he : ∀ wallet, e ≠ .step (.removeReplicate id wallet)) (h : P p.store) :
    P (e.apply p).store := by
  have hleads : ∀ {S : Step → Prop} {q : Pool},
      (∀ s, S s → ∀ wallet, s ≠ .removeReplicate id wallet) → p.Leads S q → P q.store :=
    fun hS hq => hq.keeps (P := fun q => P q.store) (fun s hs q hq => hstep s q (hS s hs) hq) h
  cases e with
  | step s => exact hstep s p (fun wallet hs => he wallet (hs ▸ rfl)) h
  | update i => exact hleads (by rintro _ hs wallet rfl; exact hs) (Event.leads (.update i) p)
  | serve i =>
    exact hleads (by rintro _ hs wallet rfl; exact hs.elim False.elim False.elim)
      (Event.leads (.serve i) p)
  | recover block wallet =>
    exact hleads (by rintro _ hs w rfl; exact hs) (Event.leads (.recover block wallet) p)
  | detect d => exact hleads (by rintro _ hs wallet rfl; exact hs) (Event.leads (.detect d) p)
  | find lastBlock wallet =>
    show P (p.attempt (findAuthorization lastBlock wallet)).2.store
    cases Pool.found hk lastBlock wallet with
    | nothing same =>
      rw [same]
      exact h
    | removed _ pool =>
      rw [pool]
      exact h
    | enrolled t _ _ _ _ enrolled =>
      -- the store is the one after the addition alone
      obtain ⟨l, hl, hw, hstore⟩ := enrolled.list
      have hid : l.chainTaskId = t.chainTaskId := hk.list hl
      have hadd := p.writeStore_ok (Store.addReplicate_of_notMem p.now (hid ▸ hl) hw)
      have hkept := hstep (.addReplicate l wallet) p (by simp) h
      have hafter : ((Step.addReplicate l wallet).apply p).store =
          p.store.setList l.chainTaskId (l.plus p.now wallet l.chainTaskId) :=
        congrArg (·.2.store) hadd
      rw [hafter, hid] at hkept
      rw [hstore]
      exact hkept

/-- What every step keeps, removals apart, is kept by every run without removals. -/
theorem Pool.Runs.keeps_records {p q : Pool}
    (hrun : p.Runs (fun _ e => ∀ wallet, e ≠ .step (.removeReplicate id wallet)) q)
    (hk : p.store.Keyed) (h : P p.store) : P q.store :=
  hrun.keeps_keyed (P := fun q => P q.store)
    (fun _ _ hk he hq => Event.keeps_records hstep hk he hq) hk h

end Kept

end ComputePool
