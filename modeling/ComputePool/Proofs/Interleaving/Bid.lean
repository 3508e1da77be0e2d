import ComputePool.Proofs.Interleaving.Process
import ComputePool.Proofs.OpenTasks
import ComputePool.Proofs.Participants

/-!
# A request for work among others

While a worker's request is on its way, others change the pool between its calls. What it read is
old by the time it writes; all it can rely on is `Store.Later`: records are not taken away, trust
does not change, and every change of a list shows in its version. That is enough. A replicate is
only added to a list of the version that was read, so the list is still the one that was found to
have room (`Store.WasRead.eq`).

`Process.Bids` says of a process that each of its calls either leaves the records alone, or puts a
replicate of its worker into a list with room, or takes that replicate out again (`Store.Bid`).
`bids_findAuthorization`: a request for work is such a process, and it answers with an
authorization exactly where it leaves a replicate.
-/

namespace ComputePool

/-! ## What others may do -/

/-- The second list is the first one at a later time: every change in between was counted. -/
structure ReplicateList.Became (l l' : ReplicateList) : Prop where
  le : l.version ≤ l'.version
  same : l'.version = l.version → l' = l

namespace ReplicateList.Became

variable {l l' l'' : ReplicateList}

theorem refl (l : ReplicateList) : l.Became l := ⟨Nat.le_refl _, fun _ => rfl⟩

theorem trans (h : l.Became l') (h' : l'.Became l'') : l.Became l'' := by
  refine ⟨Nat.le_trans h.le h'.le, fun hversion => ?_⟩
  -- no version in between
  have hversion' : l'.version = l.version := Nat.le_antisymm (hversion ▸ h'.le) h.le
  rw [h'.same (hversion.trans hversion'.symm), h.same hversion']

/-- A greater version tells that something happened, and that is all that is asked. -/
theorem of_lt (h : l.version < l'.version) : l.Became l' :=
  ⟨Nat.le_of_lt h, fun hversion => absurd hversion (Nat.ne_of_gt h)⟩

/-- An addition is counted in the version. -/
theorem plus (l : ReplicateList) (now : Instant) (wallet id : String) :
    l.Became (l.plus now wallet id) := of_lt (Nat.lt_succ_self l.version)

theorem without (l : ReplicateList) (wallet : String) : l.Became (l.without wallet) := by
  unfold ReplicateList.without
  split
  · exact of_lt (Nat.lt_succ_self l.version)
  · exact refl l

end ReplicateList.Became

/-- The list of the task was read before. -/
def Store.WasRead (id : String) (l : ReplicateList) (s : Store) : Prop :=
  ∃ l', s.list? id = some l' ∧ l.Became l'

/-- The task is stored with this trust. -/
def Store.HasTrust (id : String) (trust : UInt32) (s : Store) : Prop :=
  ∃ t, s.task? id = some t ∧ t.trust = trust

/-- Lists stay, and each of their changes is counted; tasks stay, and so does their trust. -/
structure Store.Later (s s' : Store) : Prop where
  list : ∀ {id : String} {l : ReplicateList}, s.list? id = some l → s'.WasRead id l
  task : ∀ {id : String} {t : Task}, s.task? id = some t → s'.HasTrust id t.trust

namespace Store

variable {s s' s'' : Store} {id : String} {l : ReplicateList} {trust : UInt32}

theorem wasRead_of_list? (h : s.list? id = some l) : s.WasRead id l := ⟨l, h, .refl l⟩

/-- A list that was read stays a list that was read. -/
theorem WasRead.later (h : s.WasRead id l) (hs : s.Later s') : s'.WasRead id l := by
  obtain ⟨l', hl', hbecame⟩ := h
  obtain ⟨l'', hl'', hbecame'⟩ := hs.list hl'
  exact ⟨l'', hl'', hbecame.trans hbecame'⟩

/-- A list of the version that was read is the list that was read. -/
theorem WasRead.eq (h : s.WasRead id l) {stored : ReplicateList} (hl : s.list? id = some stored)
    (hversion : stored.version = l.version) : stored = l := by
  obtain ⟨l', hl', hbecame⟩ := h
  obtain rfl := Option.some.inj (hl.symm.trans hl')
  exact hbecame.same hversion

theorem HasTrust.later (h : s.HasTrust id trust) (hs : s.Later s') : s'.HasTrust id trust := by
  obtain ⟨t, ht, htrust⟩ := h
  obtain ⟨t', ht', htrust'⟩ := hs.task ht
  exact ⟨t', ht', htrust'.trans htrust⟩

namespace Later

theorem refl (s : Store) : s.Later s := ⟨wasRead_of_list?, fun ht => ⟨_, ht, rfl⟩⟩

theorem trans (h : s.Later s') (h' : s'.Later s'') : s.Later s'' :=
  ⟨fun hl => (h.list hl).later h', fun ht => (h.task ht).later h'⟩

theorem of_eq (h : s' = s) : s.Later s' := h ▸ refl s

/-- Only the list of one task changed. -/
theorem of_list (id : String) (htasks : s'.tasks = s.tasks)
    (hothers : ∀ i, i ≠ id → s'.list? i = s.list? i)
    (hlist : ∀ l, s.list? id = some l → s'.WasRead id l) : s.Later s' := by
  refine ⟨fun {i l} hl => ?_, fun {i t} ht => ⟨t, ?_, rfl⟩⟩
  · by_cases hid : i = id
    · exact hid ▸ hlist l (hid ▸ hl)
    · exact wasRead_of_list? ((hothers i hid).trans hl)
  · unfold task?
    rw [htasks]
    exact ht

end Later

end Store

/-! ## What a request may do -/

/-- What one call of a request for work does to the records, with the task in which its worker has
a replicate by this request, before and after. -/
inductive Store.Bid (wallet : String) (s s' : Store) : Option String → Option String → Prop where
  | idle {held : Option String} (same : s' = s) : Bid wallet s s' held held
  | join {id : String} {t : Task} {l : ReplicateList} (now : Instant)
      (stored : s.task? id = some t) (list : s.list? id = some l)
      (absent : l.hasWorker wallet = false) (room : l.aliveCount < trustTarget t.trust)
      (after : s' = s.setList id (l.plus now wallet id)) : Bid wallet s s' none (some id)
  | leave {id : String} (after : s' = (s.removeReplicate id wallet).2) :
      Bid wallet s s' (some id) none

/-- Nobody's bid does what others may not rely on. -/
theorem Store.Bid.later {wallet : String} {s s' : Store} {held held' : Option String}
    (h : s.Bid wallet s' held held') : s.Later s' := by
  cases h with
  | idle same => exact .of_eq same
  | @join id t l now stored list absent room after =>
    subst after
    have hlist : ∀ i, (s.setList id (l.plus now wallet id)).list? i =
        if id = i then some (l.plus now wallet id) else s.list? i := fun i => list?_setList id i _
    refine .of_list id rfl (fun i hid => (hlist i).trans (if_neg (Ne.symm hid))) ?_
    intro k hk
    obtain rfl := Option.some.inj (list.symm.trans hk)
    exact ⟨_, (hlist id).trans (if_pos rfl), .plus l now wallet id⟩
  | @leave id after =>
    subst after
    have hlist := s.list?_removeReplicate id wallet
    refine .of_list id (s.tasks_removeReplicate id wallet)
      (fun i hid => (hlist i).trans (if_neg (Ne.symm hid))) ?_
    intro k hk
    exact ⟨_, (hlist id).trans ((if_pos rfl).trans (congrArg (Option.map _) hk)), .without k wallet⟩

/-- Each call of the process is a bid of the worker, whatever others do in between and whatever
numbers are chosen. In the end the process gives what `R` asks for, with the task in which a
replicate is left. -/
def Process.Bids {α : Type} (wallet : String) (R : α → Option String → Store → Prop) :
    Process α → Option String → Store → Prop
  | done a, held, s => R a held s
  | choose next, held, s => ∀ n : Nat, (next n).Bids wallet R held s
  | call after next, held, s => ∀ q : Pool, s.Later q.store → q.store.Keyed →
      ∃ held', q.store.Bid wallet (after q).store held held' ∧
        (next q).Bids wallet R held' (after q).store

namespace Process

variable {α β : Type} {wallet : String} {R : α → Option String → Store → Prop}
  {S : β → Option String → Store → Prop} {held : Option String} {s s' : Store}

/-- A request that waits can wait longer. -/
theorem Bids.later {x : Process α} (h : x.Bids wallet R held s) (hs : s.Later s')
    (hR : ∀ a held, R a held s → R a held s') : x.Bids wallet R held s' := by
  induction x generalizing held with
  | done a => exact hR a held h
  | choose next ih => exact fun n => ih n (h n)
  | call after next => exact fun q hq hk => h q (hs.trans hq) hk

/-- What a process could rely on at its start it can rely on to its end. -/
theorem Bids.tracked {x : Process α} (h : x.Bids wallet R held s) :
    x.Bids wallet (fun a held s' => R a held s' ∧ s.Later s') held s := by
  suffices hall : ∀ s₀ : Store, s₀.Later s →
      x.Bids wallet (fun a held s' => R a held s' ∧ s₀.Later s') held s from hall s (.refl s)
  intro s₀ hs₀
  induction x generalizing held s with
  | done a => exact ⟨h, hs₀⟩
  | choose next ih => exact fun n => ih n (h n) hs₀
  | call after next ih =>
    intro q hq hk
    obtain ⟨held', hbid, hnext⟩ := h q hq hk
    exact ⟨held', hbid, ih q hnext ((hs₀.trans hq).trans hbid.later)⟩

/-- A process goes on with bids from where its first part left a replicate. -/
theorem Bids.bind {x : Process α} {f : α → Process β} (hx : x.Bids wallet R held s)
    (hf : ∀ a held s, R a held s → (f a).Bids wallet S held s) :
    (x >>= f).Bids wallet S held s := by
  induction x generalizing held s with
  | done a => exact hf a held s hx
  | choose next ih => exact fun n => ih n (hx n)
  | call after next ih =>
    intro q hq hk
    obtain ⟨held', hbid, hnext⟩ := hx q hq hk
    exact ⟨held', hbid, ih q hnext⟩

/-- A call that leaves the records alone is a bid, and its answer is about the pool in which it is
made. -/
theorem bids_ofCall {x : StateM Pool α} (hstore : ∀ q : Pool, (q.perform x).2.store = q.store)
    (h : ∀ q : Pool, s.Later q.store → R (q.perform x).1 held q.store) :
    (ofCall x).Bids wallet R held s := by
  intro q hq _
  refine ⟨held, .idle (hstore q), ?_⟩
  show R _ held (q.perform x).2.store
  rw [hstore]
  exact h q hq

/-! ## Sequences that may fail -/

section Sequences

variable {T : Except PoolError β → Option String → Store → Prop} {f : α → Fallible Process β}

/-- A part of which the sequence takes all outcomes is followed by what the sequence makes of them.
-/
theorem bids_certain {x : Process α} (hx : x.Bids wallet R held s)
    (hf : ∀ a held s, R a held s → (f a).run.Bids wallet T held s) :
    (certain x >>= f).run.Bids wallet T held s := by
  -- a call that is certain never ends the sequence
  have hcertain : Process.Bids wallet
      (fun r held s => ∃ a, r = (.ok a : Except PoolError α) ∧ R a held s)
      (x >>= fun a => pure (.ok a)) held s := hx.bind fun a held s hR => ⟨a, rfl, hR⟩
  refine Bids.bind hcertain ?_
  rintro _ held s ⟨a, rfl, hR⟩
  exact hf a held s hR

/-- One call, whose outcomes the sequence looks at itself. -/
theorem bids_call {x : StateM Pool α}
    (h : ∀ q : Pool, s.Later q.store → q.store.Keyed →
      ∃ held', q.store.Bid wallet (q.perform x).2.store held held' ∧
        (f (q.perform x).1).run.Bids wallet T held' (q.perform x).2.store) :
    (certain (ofCall x) >>= f).run.Bids wallet T held s := h

/-- One call that leaves the records alone. -/
theorem bids_look {x : StateM Pool α} (hstore : ∀ q : Pool, (q.perform x).2.store = q.store)
    (h : ∀ q : Pool, s.Later q.store → q.store.Keyed →
      (f (q.perform x).1).run.Bids wallet T held q.store) :
    (certain (ofCall x) >>= f).run.Bids wallet T held s := by
  refine bids_call fun q hq hk => ⟨held, .idle (hstore q), ?_⟩
  rw [hstore]
  exact h q hq hk

/-- One call that leaves the records alone and never fails. -/
theorem bids_read {x : StateM Pool (Except StoreError α)} {answer : Pool → α}
    (hok : ∀ q : Pool, (q.perform x).1 = .ok (answer q))
    (hstore : ∀ q : Pool, (q.perform x).2.store = q.store)
    (h : ∀ q : Pool, s.Later q.store → q.store.Keyed →
      (f (answer q)).run.Bids wallet T held q.store) :
    (stored (ofCall x) >>= f).run.Bids wallet T held s := by
  intro q hq hk
  refine ⟨held, .idle (hstore q), ?_⟩
  show (ExceptT.bindCont f ((q.perform x).1.mapError .store) : Process _).Bids wallet T held
    (q.perform x).2.store
  rw [hok, hstore]
  exact h q hq hk

end Sequences

/-! ## The request -/

/-- The task in which an attempt leaves a replicate. -/
def left (id : String) : Except PoolError Bool → Option String
  | .ok true => some id
  | _ => none

variable {t : Task} {l : ReplicateList}

/-- To look for a consensus leaves the replicate where it is. -/
theorem bids_isConsensusReached (l : ReplicateList) :
    (isConsensusReached (m := Process) l).Bids wallet
      (fun _ held' s' => held' = held ∧ s.Later s') held s := by
  unfold isConsensusReached
  refine Bids.bind (bids_ofCall (R := fun _ held' s' => held' = held ∧ s.Later s')
    (fun _ => rfl) fun q hq => ⟨rfl, hq⟩) ?_
  rintro r held' s' ⟨rfl, hs'⟩
  split
  · exact ⟨rfl, hs'⟩
  · exact ⟨rfl, hs'⟩
  · exact ⟨rfl, hs'⟩

/-- A replicate is added to the list that was read, or none is. -/
theorem bids_enrol (hid : l.chainTaskId = t.chainTaskId) (hread : s.WasRead t.chainTaskId l)
    (htrust : s.HasTrust t.chainTaskId t.trust) (hadmits : admits t wallet l = true) :
    (enrol (m := Process) t wallet l).run.Bids wallet
      (fun r held _ => held = left t.chainTaskId r) none s := by
  unfold enrol
  refine bids_call fun q hq hk => ?_
  rw [Pool.perform_addReplicate]
  cases hadd : q.store.addReplicate q.now l wallet with
  | error e =>
    have hrefused : q.addReplicate l wallet = (.error e, q) := q.writeStore_error hadd
    rw [hrefused]
    refine ⟨none, .idle rfl, ?_⟩
    dsimp only
    split
    · rfl
    · rfl
    · next h => exact absurd h (by simp)
  | ok r =>
    have hadded : q.addReplicate l wallet = (.ok r.1, { q with store := r.2 }) :=
      q.writeStore_ok hadd
    have hadd : q.store.addReplicate q.now l wallet = .ok (r.1, r.2) := hadd
    obtain ⟨stored, hstored, hversion, habsent, hstore⟩ := Store.addReplicate_ok hadd
    rw [hid] at hstored hstore
    obtain rfl := (hread.later hq).eq hstored hversion
    obtain ⟨t', ht', htrust'⟩ := htrust.later hq
    rw [hadded]
    refine ⟨some t.chainTaskId, .join q.now ht' hstored habsent ?_ hstore, ?_⟩
    · unfold admits ReplicateList.needsMore at hadmits
      rw [Bool.and_eq_true, decide_eq_true_iff] at hadmits
      rw [htrust']
      exact hadmits.2
    · -- the record of the work may fail, and then the replicate is taken back
      refine bids_call fun q' _ _ => ⟨some t.chainTaskId, .idle ?_, ?_⟩
      · exact congrArg (·.store) (Pool.writeRegistry_snd _ q')
      · split
        · rfl
        · exact bids_call fun q'' _ _ => ⟨none, .leave rfl, rfl⟩

/-- Under the lock, the list is read and a replicate is added to it, or none is. -/
theorem bids_decideLocked (htrust : s.HasTrust t.chainTaskId t.trust) :
    (decideLocked (m := Process) t wallet).run.Bids wallet
      (fun r held _ => held = left t.chainTaskId r) none s := by
  unfold decideLocked
  refine bids_read (fun _ => rfl) (fun _ => rfl) fun q hq hk => ?_
  cases hl : q.store.list? t.chainTaskId with
  | none => exact rfl
  | some l =>
    dsimp only
    cases hadmits : admits t wallet l with
    | false => exact rfl
    | true =>
      refine bids_certain (bids_isConsensusReached l) ?_
      rintro reached held' s' ⟨rfl, hs'⟩
      cases reached with
      | true => exact rfl
      | false =>
        exact bids_enrol (hk.list hl) ((Store.wasRead_of_list? hl).later hs')
          ((htrust.later hq).later hs') hadmits

/-- An attempt leaves a replicate in the task if it accepts the worker, and else none. -/
theorem bids_acceptOrReject (htrust : s.HasTrust t.chainTaskId t.trust) :
    (acceptOrReject (m := Process) t wallet).run.Bids wallet
      (fun r held _ => held = left t.chainTaskId r) none s := by
  unfold acceptOrReject
  refine bids_read (fun _ => rfl) (fun _ => rfl) fun q hq _ => ?_
  cases q.registry.isAllowed wallet with
  | false => exact bids_read (fun _ => rfl) (fun _ => rfl) fun _ _ _ => rfl
  | true =>
    cases t.hasEnclaveChallenge with
    | false => exact rfl
    | true =>
      refine bids_read (fun _ => rfl) (fun _ => rfl) fun q' hq' _ => ?_
      cases q'.store.list? t.chainTaskId with
      | none => exact rfl
      | some l =>
        dsimp only
        cases l.hasWorker wallet with
        | true => exact rfl
        | false =>
          refine bids_look (fun _ => rfl) fun q'' hq'' _ => ?_
          split
          · exact rfl
          · refine bids_certain (bids_decideLocked
              (((htrust.later hq).later hq').later hq'')) ?_
            rintro outcome held' s' rfl
            exact bids_look (fun _ => rfl) fun _ _ _ => rfl

/-- However often it is tried, a replicate is left just where the worker was accepted. -/
theorem bids_admitRepeatedly (htrust : s.HasTrust t.chainTaskId t.trust) (attempts : Nat) :
    (admitRepeatedly (m := Process) t wallet attempts).Bids wallet
      (fun accepted held _ => held = if accepted then some t.chainTaskId else none) none s := by
  induction attempts generalizing s with
  | zero => exact rfl
  | succ attempts ih =>
    unfold admitRepeatedly
    refine Bids.bind (bids_acceptOrReject htrust).tracked ?_
    rintro r held' s' ⟨rfl, hs'⟩
    cases r with
    | ok accepted =>
      cases accepted with
      | true => exact rfl
      | false => exact rfl
    | error e =>
      dsimp only
      split
      · exact ih (htrust.later hs')
      · exact rfl

/-- The task in which a request leaves a replicate. -/
def granted : Except PoolError (Option Authorization) → Option String
  | .ok (some a) => some a.chainTaskId
  | _ => none

/-- A scan leaves a replicate in the task that it grants, however many rounds it has. -/
theorem bids_scan (w : Worker) (attempts rounds : Nat) (scanned : List String) :
    (scan (m := Process) w wallet attempts rounds scanned).run.Bids wallet
      (fun r held _ => held = granted r) none s := by
  induction rounds generalizing s scanned with
  | zero => exact rfl
  | succ rounds ih =>
    unfold scan
    refine bids_read (fun _ => rfl) (fun _ => rfl) fun q _ hk => ?_
    cases ht : q.store.bestOpenTask? (!w.teeEnabled) scanned with
    | none => exact rfl
    | some t =>
      have htrust : q.store.HasTrust t.chainTaskId t.trust :=
        ⟨t, (hk.bestOpenTask? ht).1, rfl⟩
      refine bids_certain (bids_admitRepeatedly htrust attempts) ?_
      rintro accepted held' s' rfl
      cases accepted with
      | true => exact bids_look (fun _ => rfl) fun _ _ _ => rfl
      | false => exact ih (scanned ++ [t.chainTaskId])

/-- A request for work makes nothing but bids, and answers with an authorization exactly where it
leaves a replicate. -/
theorem bids_findAuthorization (lastBlock : UInt64) (wallet : String) (s : Store) :
    (findAuthorization (m := Process) lastBlock wallet).run.Bids wallet
      (fun r held _ => held = granted r) none s := by
  unfold findAuthorization
  refine bids_read (fun _ => rfl) (fun _ => rfl) fun q _ _ => ?_
  cases q.registry.canAccept wallet with
  | false => exact rfl
  | true =>
    show Bids _ _ (ExceptT.run (if lastBlock = 0 then _ else _)) _ _
    split
    · exact rfl
    · refine bids_read (fun _ => rfl) (fun _ => rfl) fun q' _ _ => ?_
      cases q'.registry.hasEnoughGas wallet with
      | false => exact rfl
      | true =>
        refine bids_read (fun _ => rfl) (fun _ => rfl) fun q'' _ _ => ?_
        cases q''.registry.worker? wallet with
        | none => exact rfl
        | some w =>
          refine bids_look (x := Collaborators.maxAttempts) (fun _ => rfl) fun _ _ _ => ?_
          -- however many rounds the scan is given
          exact fun rounds => bids_scan w _ rounds []

end Process

end ComputePool
