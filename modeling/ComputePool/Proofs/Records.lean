import ComputePool.Proofs.Steps

/-!
# The records under single steps

What each write does to the records, told through the look-ups `task?` and `list?` alone. A write
touches the record of one id; the changed record is named here once (`Task.saved`,
`ReplicateList.report`, `ReplicateList.without`), and no later proof opens a table.

`Store.Keyed` says that every record lies under its own id, and nowhere else. All writes keep it,
whoever makes them and whatever they carry (`Store.Keyed.step`), so it holds of every pool that
began without records.
-/

namespace ComputePool

namespace Table

variable {κ α : Type} [DecidableEq κ]

/-- A key that is set comes in at the end, or was there already. -/
theorem keys_insertIn (k : κ) (a : α) (es : List (κ × α)) :
    (insertIn k a es).map (·.1) =
      if k ∈ es.map (·.1) then es.map (·.1) else es.map (·.1) ++ [k] := by
  induction es with
  | nil => rfl
  | cons e rest ih =>
    show _ = if k ∈ e.1 :: rest.map (·.1) then e.1 :: rest.map (·.1)
      else e.1 :: (rest.map (·.1) ++ [k])
    unfold insertIn
    by_cases he : e.1 = k
    · rw [if_pos he, if_pos (List.mem_cons.2 (.inl he.symm)), List.map_cons, he]
    · rw [if_neg he, List.map_cons, ih]
      by_cases hk : k ∈ rest.map (·.1)
      · rw [if_pos hk, if_pos (List.mem_cons_of_mem _ hk)]
      · rw [if_neg hk, if_neg fun hmem => (List.mem_cons.1 hmem).elim (fun h => he h.symm) hk]

/-- An insertion never leads to two entries of one key. -/
theorem nodup_keys_insert (k : κ) (a : α) {t : Table κ α} (h : t.keys.Nodup) :
    (t.insert k a).keys.Nodup := by
  show ((insertIn k a t.entries).map (·.1)).Nodup
  rw [keys_insertIn]
  split
  · exact h
  · next hk =>
    exact List.nodup_append.2 ⟨h, List.nodup_singleton k, fun a ha b hb hab =>
      hk (List.mem_singleton.1 hb ▸ hab ▸ ha)⟩

/-- What is found is among the values. -/
theorem mem_values_of_find? {k : κ} {a : α} {t : Table κ α} (h : t.find? k = some a) :
    a ∈ t.values := by
  have hin : ∀ es : List (κ × α), findIn k es = some a → a ∈ es.map (·.2) := by
    intro es hes
    induction es with
    | nil => exact absurd hes (by simp [findIn])
    | cons e rest ih =>
      unfold findIn at hes
      split at hes
      · obtain rfl := Option.some.inj hes
        exact List.mem_cons_self
      · exact List.mem_cons_of_mem _ (ih hes)
  exact hin t.entries h

/-- Where keys are distinct, every entry is found under its key. -/
theorem findIn_of_mem {es : List (κ × α)} (h : (es.map (·.1)).Nodup) {e : κ × α} (he : e ∈ es) :
    findIn e.1 es = some e.2 := by
  induction es with
  | nil => exact absurd he List.not_mem_nil
  | cons d rest ih =>
    unfold findIn
    rcases List.mem_cons.1 he with rfl | hrest
    · rw [if_pos rfl]
    · -- the first entry has another key, so the search goes on
      have hmem : e.1 ∈ rest.map (·.1) := List.mem_map_of_mem hrest
      have hfirst : d.1 ∉ rest.map (·.1) := (List.nodup_cons.1 h).1
      have hne : d.1 ≠ e.1 := fun hde => hfirst (hde.symm ▸ hmem)
      rw [if_neg hne]
      exact ih (List.nodup_cons.1 h).2 hrest

end Table

/-- The task as it is stored by a save. -/
def Task.saved (t : Task) : Task := { t with version := t.version + 1 }

namespace ReplicateList

/-- The list after an update of the replicate of a wallet, if there is one. -/
def report (wallet : String) (u : StatusUpdate) (l : ReplicateList) : ReplicateList :=
  if l.hasWorker wallet then { l.updateWorker wallet u with version := l.version + 1 } else l

/-- The list after the removal of a wallet's replicates, if there are any. -/
def without (wallet : String) (l : ReplicateList) : ReplicateList :=
  if l.hasWorker wallet then
    { l with version := l.version + 1, replicates := l.replicates.filter (·.wallet != wallet) }
  else l

/-- The list after the addition of a fresh replicate. -/
def plus (now : Instant) (wallet id : String) (l : ReplicateList) : ReplicateList :=
  { l with version := l.version + 1, replicates := l.replicates ++ [.fresh now wallet id] }

/-- A report does not move the list to another task. -/
@[simp] theorem report_chainTaskId (wallet : String) (u : StatusUpdate) (l : ReplicateList) :
    (l.report wallet u).chainTaskId = l.chainTaskId := by
  unfold report
  split <;> rfl

@[simp] theorem without_chainTaskId (wallet : String) (l : ReplicateList) :
    (l.without wallet).chainTaskId = l.chainTaskId := by
  unfold without
  split <;> rfl

/-- Who has no replicate is not found. -/
theorem hasWorker_eq_false_iff {l : ReplicateList} {wallet : String} :
    l.hasWorker wallet = false ↔ l.find? wallet = none :=
  Option.isSome_eq_false_iff.trans Option.isNone_iff_eq_none

/-- A report on a worker of the list is counted. -/
theorem version_report {l : ReplicateList} {wallet : String} (h : l.hasWorker wallet = true)
    (u : StatusUpdate) : (l.report wallet u).version = l.version + 1 := by
  unfold report
  rw [if_pos h]

/-- A report of somebody who has no replicate is dropped. -/
theorem report_of_absent {l : ReplicateList} {wallet : String} (h : l.hasWorker wallet = false)
    (u : StatusUpdate) : l.report wallet u = l :=
  if_neg (by simp [h])

/-- The removal of a worker of the list is counted. -/
theorem version_without {l : ReplicateList} {wallet : String} (h : l.hasWorker wallet = true) :
    (l.without wallet).version = l.version + 1 := by
  unfold without
  rw [if_pos h]

/-- Who has no replicate need not be taken out. -/
theorem without_of_absent {l : ReplicateList} {wallet : String}
    (h : l.hasWorker wallet = false) : l.without wallet = l :=
  if_neg (by simp [h])

/-- The wallets of the replicates. -/
def wallets (l : ReplicateList) : List String := l.replicates.map (·.wallet)

/-- Who has a replicate is one of the wallets of the list. -/
theorem hasWorker_iff {wallet : String} {l : ReplicateList} :
    l.hasWorker wallet = true ↔ wallet ∈ l.wallets := by
  unfold hasWorker find? wallets
  rw [List.find?_isSome, List.mem_map]
  simp only [beq_iff_eq]

/-- A change that keeps the wallets of the replicates keeps them in place. -/
theorem map_wallet_modifyFirst (p : Replicate → Bool) {f : Replicate → Replicate}
    (hf : ∀ r, (f r).wallet = r.wallet) (rs : List Replicate) :
    (modifyFirst p f rs).map (·.wallet) = rs.map (·.wallet) := by
  induction rs with
  | nil => rfl
  | cons r rest ih =>
    unfold modifyFirst
    split
    · rw [List.map_cons, List.map_cons, hf]
    · rw [List.map_cons, List.map_cons, ih]

/-- An update of a replicate leaves the wallets. -/
@[simp] theorem wallets_report (wallet : String) (u : StatusUpdate) (l : ReplicateList) :
    (l.report wallet u).wallets = l.wallets := by
  unfold report
  split
  · exact map_wallet_modifyFirst _ (f := (·.updateStatus u)) (fun _ => rfl) l.replicates
  · rfl

/-- A report changes nobody's part in the task. -/
theorem hasWorker_report (l : ReplicateList) (wallet : String) (u : StatusUpdate)
    (other : String) : (l.report wallet u).hasWorker other = l.hasWorker other := by
  rw [Bool.eq_iff_iff, hasWorker_iff, hasWorker_iff, wallets_report]

/-- A change that makes an element fail a test does not make more elements pass it. -/
theorem countP_modifyFirst_le {α : Type} (p q : α → Bool) {f : α → α} (hf : ∀ a, q (f a) = false)
    (as : List α) : (modifyFirst p f as).countP q ≤ as.countP q := by
  induction as with
  | nil => exact Nat.le_refl _
  | cons a rest ih =>
    unfold modifyFirst
    split
    · rw [List.countP_cons, List.countP_cons, hf]
      exact Nat.add_le_add_left (Nat.zero_le _) _
    · rw [List.countP_cons, List.countP_cons]
      exact Nat.add_le_add_right ih _

/-- A change under which whoever passes a test still does makes no fewer pass it. -/
theorem countP_le_modifyFirst {α : Type} (p q : α → Bool) {f : α → α}
    (hf : ∀ a, q a = true → q (f a) = true) (as : List α) :
    as.countP q ≤ (modifyFirst p f as).countP q := by
  induction as with
  | nil => exact Nat.le_refl _
  | cons a rest ih =>
    unfold modifyFirst
    split
    · rw [List.countP_cons, List.countP_cons]
      refine Nat.add_le_add_left ?_ _
      split
      · next ha => exact Nat.le_of_eq (if_pos (hf a ha)).symm
      · exact Nat.zero_le _
    · rw [List.countP_cons, List.countP_cons]
      exact Nat.add_le_add_right ih _

/-- An update to another status than revealed makes nobody a candidate. -/
theorem length_uploadCandidates_report_le (wallet : String) {u : StatusUpdate}
    (hu : u.status ≠ .revealed) (l : ReplicateList) :
    (l.report wallet u).uploadCandidates.length ≤ l.uploadCandidates.length := by
  unfold report
  split
  · unfold uploadCandidates
    rw [← List.countP_eq_length_filter, ← List.countP_eq_length_filter]
    have hfails : ∀ r : Replicate, ((r.updateStatus u).status == .revealed) = false :=
      fun _ => beq_eq_false_iff_ne.2 hu
    exact countP_modifyFirst_le _ _ hfails l.replicates
  · exact Nat.le_refl _

/-- After an addition the new wallet takes part as well. -/
theorem hasWorker_plus (l : ReplicateList) (now : Instant) (wallet id other : String) :
    (l.plus now wallet id).hasWorker other = (l.hasWorker other || wallet == other) := by
  rw [Bool.eq_iff_iff, Bool.or_eq_true, hasWorker_iff, hasWorker_iff, beq_iff_eq]
  unfold wallets plus
  rw [List.map_append, List.mem_append]
  exact or_congr_right (List.mem_singleton.trans eq_comm)

end ReplicateList

namespace Store

variable {s : Store}

/-- The list that was put down for a task is found, and those of other tasks are as before. -/
@[simp] theorem list?_setList (id i : String) (l : ReplicateList) :
    (s.setList id l).list? i = if id = i then some l else s.list? i :=
  Table.find?_insert id i l s.lists

/-! ## Tasks -/

/-- A task is stored only where none is. -/
theorem insertTask_ok {s' : Store} {t : Task} (h : s.insertTask t = .ok s') :
    s.task? t.chainTaskId = none ∧ s' = { s with tasks := s.tasks.insert t.chainTaskId t } := by
  unfold insertTask at h
  split at h
  · exact absurd h (by simp)
  · next hc =>
    refine ⟨?_, (Except.ok.inj h).symm⟩
    unfold Table.contains at hc
    exact Option.not_isSome_iff_eq_none.1 hc

/-- A save needs the version of the stored task, and stores the next one. -/
theorem saveTask_ok {s' : Store} {t t' : Task} (h : s.saveTask t = .ok (t', s')) :
    ∃ stored, s.task? t.chainTaskId = some stored ∧ stored.version = t.version ∧
      t' = t.saved ∧ s' = { s with tasks := s.tasks.insert t.chainTaskId t.saved } := by
  unfold saveTask at h
  split at h
  · exact absurd h (by simp)
  · next stored hs =>
    split at h
    · next hv =>
      have heq := Prod.mk.inj (Except.ok.inj h)
      exact ⟨stored, hs, hv, heq.1.symm, heq.2.symm⟩
    · exact absurd h (by simp)

/-- A save against the stored version succeeds. -/
theorem saveTask_of_version {t stored : Task} (hs : s.task? t.chainTaskId = some stored)
    (hv : stored.version = t.version) :
    s.saveTask t =
      .ok (t.saved, { s with tasks := s.tasks.insert t.chainTaskId t.saved }) := by
  unfold saveTask
  rw [hs]
  exact if_pos hv

/-- The task that was put down is found, and the others are as before. -/
@[simp] theorem task?_insert (id i : String) (t : Task) (l : Table String ReplicateList) :
    Store.task? i ⟨s.tasks.insert id t, l⟩ = if id = i then some t else s.task? i :=
  Table.find?_insert id i t s.tasks

/-! ## Replicate lists -/

/-- A list is only created where there is none, and it is empty. -/
theorem createList_ok {s' : Store} {id : String} {l : ReplicateList}
    (h : s.createList id = .ok (l, s')) : s.list? id = none ∧ s' = s.setList id (.empty id) := by
  unfold createList at h
  split at h
  · exact absurd h (by simp)
  · next hc =>
    refine ⟨?_, (Prod.mk.inj (Except.ok.inj h)).2.symm⟩
    unfold Table.contains at hc
    exact Option.not_isSome_iff_eq_none.1 hc

/-- An addition needs the version of the stored list, and a wallet that is not in it. -/
theorem addReplicate_ok {s' : Store} {now : Instant} {read changed : ReplicateList}
    {wallet : String} (h : s.addReplicate now read wallet = .ok (changed, s')) :
    ∃ stored, s.list? read.chainTaskId = some stored ∧ stored.version = read.version ∧
      stored.hasWorker wallet = false ∧
      s' = s.setList read.chainTaskId (stored.plus now wallet read.chainTaskId) := by
  unfold addReplicate at h
  dsimp only at h
  split at h
  · exact absurd h (by simp)
  · next stored hs =>
    split at h
    · next hv =>
      split at h
      · exact absurd h (by simp)
      · next hw =>
        exact ⟨stored, hs, hv, by simpa using hw, (Prod.mk.inj (Except.ok.inj h)).2.symm⟩
    · exact absurd h (by simp)

/-- An addition to the list as it is stored, of a wallet that is not in it, succeeds. -/
theorem addReplicate_of_notMem {l : ReplicateList} (now : Instant) {wallet : String}
    (hl : s.list? l.chainTaskId = some l) (hw : l.hasWorker wallet = false) :
    s.addReplicate now l wallet =
      .ok (l.plus now wallet l.chainTaskId,
        s.setList l.chainTaskId (l.plus now wallet l.chainTaskId)) := by
  unfold addReplicate
  dsimp only
  rw [hl]
  dsimp only
  rw [if_pos rfl, if_neg (by simp [hw])]
  rfl

/-- A report is written into the list of its task, and into no other. -/
theorem list?_updateReplicate (s : Store) (id wallet : String) (u : StatusUpdate) (i : String) :
    (s.updateReplicate id wallet u).2.list? i =
      if id = i then (s.list? i).map (·.report wallet u) else s.list? i := by
  unfold updateReplicate
  split
  · next hs =>
    by_cases hi : id = i
    · subst hi
      rw [if_pos rfl, hs]
      rfl
    · rw [if_neg hi]
  · next l hs =>
    split
    · next hw =>
      by_cases hi : id = i
      · subst hi
        rw [if_pos rfl, hs]
        simp [ReplicateList.report, ReplicateList.hasWorker, hw]
      · rw [if_neg hi]
    · next r hw =>
      rw [list?_setList]
      by_cases hi : id = i
      · subst hi
        rw [if_pos rfl, if_pos rfl, hs]
        simp [ReplicateList.report, ReplicateList.hasWorker, hw]
      · rw [if_neg hi, if_neg hi]

theorem tasks_updateReplicate (s : Store) (id wallet : String) (u : StatusUpdate) :
    (s.updateReplicate id wallet u).2.tasks = s.tasks := by
  unfold updateReplicate
  split
  · rfl
  · split
    · rfl
    · rfl

/-- A replicate is taken out of the list of its task, and out of no other. -/
theorem list?_removeReplicate (s : Store) (id wallet i : String) :
    (s.removeReplicate id wallet).2.list? i =
      if id = i then (s.list? i).map (·.without wallet) else s.list? i := by
  unfold removeReplicate
  split
  · next hs =>
    by_cases hi : id = i
    · subst hi
      rw [if_pos rfl, hs]
      rfl
    · rw [if_neg hi]
  · next l hs =>
    split
    · next hw =>
      rw [list?_setList]
      by_cases hi : id = i
      · subst hi
        rw [if_pos rfl, if_pos rfl, hs]
        simp [ReplicateList.without, hw]
      · rw [if_neg hi, if_neg hi]
    · next hw =>
      by_cases hi : id = i
      · subst hi
        rw [if_pos rfl, hs]
        simp [ReplicateList.without, hw]
      · rw [if_neg hi]

theorem tasks_removeReplicate (s : Store) (id wallet : String) :
    (s.removeReplicate id wallet).2.tasks = s.tasks := by
  unfold removeReplicate
  split
  · rfl
  · split
    · rfl
    · rfl

end Store

/-! ## Steps on the records -/

/-- The step may change the tasks. -/
def Step.WritesTasks : Step → Prop
  | .insertTask _ | .saveTask _ => True
  | _ => False

/-- The step may change the replicate lists. -/
def Step.WritesLists : Step → Prop
  | .createList _ | .addReplicate .. | .updateReplicate .. | .removeReplicate .. => True
  | _ => False

namespace Pool

variable (p : Pool)

theorem writeStore_ok {α : Type} {f : Store → Except StoreError (α × Store)} {a : α} {s : Store}
    (h : f p.store = .ok (a, s)) : p.writeStore f = (.ok a, { p with store := s }) := by
  unfold writeStore
  rw [h]

/-- A write that fails leaves the whole pool as it was. -/
theorem writeStore_error {α : Type} {f : Store → Except StoreError (α × Store)} {e : StoreError}
    (h : f p.store = .error e) : p.writeStore f = (.error e, p) := by
  unfold writeStore
  rw [h]

/-- A write either fails and changes nothing, or succeeds on the store. -/
theorem writeStore_cases {α : Type} (f : Store → Except StoreError (α × Store)) :
    (p.writeStore f).2 = p ∨
      ∃ a s, f p.store = .ok (a, s) ∧ (p.writeStore f).2 = { p with store := s } := by
  cases h : f p.store with
  | error e => exact .inl (by rw [p.writeStore_error h])
  | ok r => exact .inr ⟨r.1, r.2, rfl, by rw [p.writeStore_ok h]⟩

/-- Once its creation was tried a list is there, the old one if there was one. -/
theorem createList_list? (id i : String) :
    (p.createList id).2.store.list? i =
      if id = i then some ((p.store.list? i).getD (.empty i)) else p.store.list? i := by
  unfold createList
  cases h : p.store.createList id with
  | error e =>
    rw [p.writeStore_error h]
    -- the list is there already, and stays
    unfold Store.createList at h
    split at h
    · next hc =>
      obtain ⟨l, hl⟩ := Option.isSome_iff_exists.1 hc
      by_cases hi : id = i
      · subst hi
        show p.store.list? id = _
        rw [if_pos rfl, show p.store.list? id = some l from hl]
        rfl
      · rw [if_neg hi]
    · exact absurd h (by simp)
  | ok r =>
    obtain ⟨hnone, hs⟩ := Store.createList_ok (show p.store.createList id = .ok (r.1, r.2) from h)
    rw [p.writeStore_ok h, hs, Store.list?_setList]
    by_cases hi : id = i
    · subst hi
      rw [if_pos rfl, if_pos rfl, hnone]
      rfl
    · rw [if_neg hi, if_neg hi]

theorem createList_tasks (id : String) : (p.createList id).2.store.tasks = p.store.tasks := by
  unfold createList
  rcases p.writeStore_cases (·.createList id) with h | ⟨l, s, hs, h⟩
  · rw [h]
  · rw [h]
    obtain ⟨-, rfl⟩ := Store.createList_ok hs
    rfl

/-- A task is stored where none is, or nothing changes. -/
theorem insertTask_cases (t : Task) :
    (p.insertTask t).2 = p ∨ p.store.task? t.chainTaskId = none ∧
      (p.insertTask t).2 =
        { p with store := { p.store with tasks := p.store.tasks.insert t.chainTaskId t } } := by
  unfold insertTask
  rcases p.writeStore_cases fun s => (s.insertTask t).map (t, ·) with h | ⟨u, s, hs, h⟩
  · exact .inl h
  · cases hi : p.store.insertTask t with
    | error e =>
      rw [hi] at hs
      exact absurd hs (by simp [Except.map])
    | ok s' =>
      obtain ⟨hnone, rfl⟩ := Store.insertTask_ok hi
      rw [hi] at hs
      obtain ⟨-, rfl⟩ := Prod.mk.inj (Except.ok.inj hs)
      exact .inr ⟨hnone, h⟩

/-- A task is saved over one of its version, or nothing changes. -/
theorem saveTask_cases (t : Task) :
    (p.saveTask t).2 = p ∨ ∃ stored, p.store.task? t.chainTaskId = some stored ∧
      stored.version = t.version ∧
      (p.saveTask t).2 =
        { p with
          store := { p.store with tasks := p.store.tasks.insert t.chainTaskId t.saved } } := by
  rcases p.writeStore_cases (·.saveTask t) with h | ⟨u, s, hs, h⟩
  · exact .inl h
  · obtain ⟨stored, hstored, hv, -, rfl⟩ := Store.saveTask_ok hs
    exact .inr ⟨stored, hstored, hv, h⟩

/-- A fresh replicate is added to a list of the version that was read, or nothing changes. -/
theorem addReplicate_cases (read : ReplicateList) (wallet : String) :
    (p.addReplicate read wallet).2 = p ∨ ∃ stored, p.store.list? read.chainTaskId = some stored ∧
      stored.version = read.version ∧ stored.hasWorker wallet = false ∧
      (p.addReplicate read wallet).2 =
        { p with store :=
            p.store.setList read.chainTaskId (stored.plus p.now wallet read.chainTaskId) } := by
  rcases p.writeStore_cases (·.addReplicate p.now read wallet) with h | ⟨u, s, hs, h⟩
  · exact .inl h
  · obtain ⟨stored, hstored, hv, hw, rfl⟩ := Store.addReplicate_ok hs
    exact .inr ⟨stored, hstored, hv, hw, h⟩

end Pool

/-- Only the writes of tasks change the tasks. -/
theorem Step.tasks_apply {s : Step} (h : ¬ s.WritesTasks) (p : Pool) :
    (s.apply p).store.tasks = p.store.tasks := by
  by_cases hpart : s.part = .store
  · -- of the writes of records only those of lists are left
    cases s with
    | insertTask t => exact absurd trivial h
    | saveTask t => exact absurd trivial h
    | createList id => exact p.createList_tasks id
    | addReplicate read wallet =>
      rcases p.addReplicate_cases read wallet with hp | ⟨stored, -, -, -, hp⟩
      · exact congrArg (·.store.tasks) hp
      · exact congrArg (·.store.tasks) hp
    | updateReplicate id wallet u => exact p.store.tasks_updateReplicate id wallet u
    | removeReplicate id wallet => exact p.store.tasks_removeReplicate id wallet
    | _ => exact absurd hpart (by simp [Step.part])
  · rw [Step.store_apply p hpart]

/-- Only the writes of lists change the lists. -/
theorem Step.lists_apply {s : Step} (h : ¬ s.WritesLists) (p : Pool) :
    (s.apply p).store.lists = p.store.lists := by
  by_cases hpart : s.part = .store
  · cases s with
    | insertTask t =>
      rcases p.insertTask_cases t with hp | ⟨-, hp⟩
      · exact congrArg (·.store.lists) hp
      · exact congrArg (·.store.lists) hp
    | saveTask t =>
      rcases p.saveTask_cases t with hp | ⟨stored, -, -, hp⟩
      · exact congrArg (·.store.lists) hp
      · exact congrArg (·.store.lists) hp
    | createList id => exact absurd trivial h
    | addReplicate read wallet => exact absurd trivial h
    | updateReplicate id wallet u => exact absurd trivial h
    | removeReplicate id wallet => exact absurd trivial h
    | _ => exact absurd hpart (by simp [Step.part])
  · rw [Step.store_apply p hpart]

/-! ## Records lie under their ids -/

/-- Every record lies under its own id, and every task under one id only. -/
structure Store.Keyed (s : Store) : Prop where
  task : ∀ {id : String} {t : Task}, s.task? id = some t → t.chainTaskId = id
  list : ∀ {id : String} {l : ReplicateList}, s.list? id = some l → l.chainTaskId = id
  distinct : s.tasks.keys.Nodup

namespace Store.Keyed

theorem empty : Store.empty.Keyed where
  task h := absurd h (by simp [Store.task?, Store.empty])
  list h := absurd h (by simp [Store.list?, Store.empty])
  distinct := List.nodup_nil

/-- A task among the stored ones is the one that is found under its id. -/
theorem task?_of_mem {s : Store} (h : s.Keyed) {t : Task} (ht : t ∈ s.tasks.values) :
    s.task? t.chainTaskId = some t := by
  obtain ⟨e, he, rfl⟩ := List.mem_map.1 ht
  have hfind : s.task? e.1 = some e.2 := Table.findIn_of_mem h.distinct he
  rw [h.task hfind]
  exact hfind

/-- A task may be written under its own id. -/
theorem insert {s : Store} (h : s.Keyed) (t : Task) :
    Keyed { s with tasks := s.tasks.insert t.chainTaskId t } := by
  refine ⟨fun {id u} hu => ?_, h.list, Table.nodup_keys_insert _ _ h.distinct⟩
  rw [task?_insert] at hu
  by_cases hid : t.chainTaskId = id
  · rw [if_pos hid] at hu
    exact Option.some.inj hu ▸ hid
  · rw [if_neg hid] at hu
    exact h.task hu

/-- Lists may change as long as each keeps its id. -/
theorem of_lists {s s' : Store} (h : s.Keyed) (htasks : s'.tasks = s.tasks)
    (hlists : ∀ id l, s'.list? id = some l → l.chainTaskId = id) : s'.Keyed := by
  refine ⟨fun {id t} ht => ?_, fun {id l} => hlists id l, ?_⟩
  · unfold task? at ht
    rw [htasks] at ht
    exact h.task ht
  · rw [htasks]
    exact h.distinct

/-- Whatever is written, the records stay under their ids. -/
theorem step {p : Pool} (h : p.store.Keyed) (s : Step) : (s.apply p).store.Keyed := by
  by_cases hpart : s.part = .store
  · cases s with
    | insertTask t =>
      show (p.insertTask t).2.store.Keyed
      rcases p.insertTask_cases t with hp | ⟨-, hp⟩
      · rw [hp]
        exact h
      · rw [hp]
        exact h.insert t
    | saveTask t =>
      show (p.saveTask t).2.store.Keyed
      rcases p.saveTask_cases t with hp | ⟨stored, -, -, hp⟩
      · rw [hp]
        exact h
      · rw [hp]
        exact h.insert t.saved
    | createList id =>
      refine h.of_lists (p.createList_tasks id) fun i l hl => ?_
      have hl : (p.createList id).2.store.list? i = some l := hl
      rw [Pool.createList_list?] at hl
      split at hl
      · cases hi : p.store.list? i with
        | none => rw [hi] at hl; exact Option.some.inj hl ▸ rfl
        | some k => rw [hi] at hl; exact Option.some.inj hl ▸ h.list hi
      · exact h.list hl
    | addReplicate read wallet =>
      show (p.addReplicate read wallet).2.store.Keyed
      rcases p.addReplicate_cases read wallet with hp | ⟨stored, hstored, -, -, hp⟩
      · rw [hp]
        exact h
      · rw [hp]
        refine h.of_lists rfl fun i l hl => ?_
        rw [list?_setList] at hl
        split at hl
        · next hi =>
          obtain rfl := Option.some.inj hl
          exact (h.list hstored).trans hi
        · exact h.list hl
    | updateReplicate id wallet u =>
      refine h.of_lists (p.store.tasks_updateReplicate id wallet u) fun i l hl => ?_
      have hl : (p.store.updateReplicate id wallet u).2.list? i = some l := hl
      rw [list?_updateReplicate] at hl
      split at hl
      · obtain ⟨k, hk, rfl⟩ := Option.map_eq_some_iff.1 hl
        rw [ReplicateList.report_chainTaskId]
        exact h.list hk
      · exact h.list hl
    | removeReplicate id wallet =>
      refine h.of_lists (p.store.tasks_removeReplicate id wallet) fun i l hl => ?_
      have hl : (p.store.removeReplicate id wallet).2.list? i = some l := hl
      rw [list?_removeReplicate] at hl
      split at hl
      · obtain ⟨k, hk, rfl⟩ := Option.map_eq_some_iff.1 hl
        rw [ReplicateList.without_chainTaskId]
        exact h.list hk
      · exact h.list hl
    | _ => exact absurd hpart (by simp [Step.part])
  · rw [Step.store_apply p hpart]
    exact h

/-- Records stay under their own keys, whatever steps are taken. -/
theorem leads {S : Step → Prop} {p q : Pool} (h : p.store.Keyed) (hq : p.Leads S q) :
    q.store.Keyed :=
  hq.keeps (P := fun q => q.store.Keyed) (fun s _ _ hq => hq.step s) h

end Store.Keyed

/-! ## One task under single steps -/

/-- What a step does to the task of an id. -/
inductive Step.OnTask (s : Step) (p : Pool) (id : String) : Prop where
  | kept (same : (s.apply p).store.task? id = p.store.task? id)
  | stored (t : Task) (step : s = .insertTask t) (of : t.chainTaskId = id)
      (unknown : p.store.task? id = none) (after : (s.apply p).store.task? id = some t)
  | saved (t old : Task) (step : s = .saveTask t) (of : t.chainTaskId = id)
      (before : p.store.task? id = some old) (version : old.version = t.version)
      (after : (s.apply p).store.task? id = some t.saved)

/-- Every step does one of these to a task. -/
theorem Step.onTask (s : Step) (p : Pool) (id : String) : s.OnTask p id := by
  by_cases hw : s.WritesTasks
  · cases s with
    | insertTask t =>
      rcases p.insertTask_cases t with hp | ⟨hnone, hp⟩
      · exact .kept (congrArg (·.store.task? id) hp)
      · have hfind := (congrArg (·.store.task? id) hp).trans (Store.task?_insert ..)
        by_cases hid : t.chainTaskId = id
        · exact .stored t rfl hid (hid ▸ hnone) (hfind.trans (if_pos hid))
        · exact .kept (hfind.trans (if_neg hid))
    | saveTask t =>
      rcases p.saveTask_cases t with hp | ⟨old, hold, hversion, hp⟩
      · exact .kept (congrArg (·.store.task? id) hp)
      · have hfind := (congrArg (·.store.task? id) hp).trans (Store.task?_insert ..)
        by_cases hid : t.chainTaskId = id
        · exact .saved t old rfl hid (hid ▸ hold) hversion (hfind.trans (if_pos hid))
        · exact .kept (hfind.trans (if_neg hid))
    | _ => exact hw.elim
  · refine .kept ?_
    unfold Store.task?
    rw [Step.tasks_apply hw]

/-- A stored task stays stored. -/
theorem Step.task?_isSome {s : Step} {p : Pool} {id : String}
    (h : (p.store.task? id).isSome) : ((s.apply p).store.task? id).isSome := by
  cases s.onTask p id with
  | kept same =>
    rw [same]
    exact h
  | stored t step of unknown after => exact after ▸ rfl
  | saved t old step of before version after => exact after ▸ rfl

end ComputePool
