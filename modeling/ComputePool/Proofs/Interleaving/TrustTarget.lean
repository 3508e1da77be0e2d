import ComputePool.Proofs.FirstFit
import ComputePool.Proofs.Interleaving.Bid
import ComputePool.Proofs.Lifecycle
import ComputePool.Proofs.Versions
import Mathlib.Logic.Function.Basic

/-!
# Admissions stay within the trust target

Any number of workers ask for work at the same time (`Reception`), and between any two calls of
their requests anything else may happen to the pool; tasks may be added, and each request scans them
for as many rounds as it is given (`Move.choose`). Three things keep a task from being given to too
many: a replicate is only added to the list that was found to have room (`Store.Bid`), it is added
under a wallet that is not there, and only the requests themselves add and remove replicates.

So an addition never leads above the trust target, in any run. The target is kept at all times as
long as nobody who was lost comes back: what a report does to the count is told wallet by wallet
(`ReplicateList.aliveCount_le`). And a worker that has a replicate by one request gets none by
another, since it would find itself in the list (`Reception.Entered`).
-/

namespace ComputePool

/-! ## Counting by wallet -/

namespace ReplicateList

variable {l l' : ReplicateList}

/-- The wallet has a replicate that counts towards the trust target. -/
def isAliveFor (l : ReplicateList) (wallet : String) : Bool :=
  (l.find? wallet).any Replicate.isAlive

/-- Replicates are counted, and since no wallet has two of them, wallets as well. -/
theorem aliveCount_eq_countP (h : l.wallets.Nodup) :
    l.aliveCount = l.wallets.countP l.isAliveFor := by
  unfold aliveCount wallets
  rw [List.countP_map]
  refine List.countP_congr fun r hr => ?_
  show _ ↔ l.isAliveFor r.wallet = true
  unfold isAliveFor
  rw [find?_of_mem h hr, Option.any_some]

/-- Where the participants are the same and nobody comes back, no more are alive than before. -/
theorem aliveCount_le (h : l.wallets.Nodup) (hsame : l'.wallets = l.wallets)
    (hdead : ∀ wallet r r', l.find? wallet = some r → r.status.isDead = true →
      l'.find? wallet = some r' → r'.status.isDead = true) : l'.aliveCount ≤ l.aliveCount := by
  rw [aliveCount_eq_countP h, aliveCount_eq_countP (hsame ▸ h), hsame]
  refine List.countP_mono_left fun wallet hwallet halive' => ?_
  obtain ⟨r', hr', hr'alive⟩ := Option.any_eq_true _ _ |>.1 halive'
  obtain ⟨r, hr⟩ := Option.isSome_iff_exists.1 (hasWorker_iff.2 hwallet)
  refine Option.any_eq_true _ _ |>.2 ⟨r, hr, ?_⟩
  unfold Replicate.isAlive at hr'alive ⊢
  rw [Bool.not_eq_true'] at hr'alive ⊢
  exact Bool.eq_false_iff.2 fun hrdead =>
    absurd (hr'alive.symm.trans (hdead wallet r r' hr hrdead hr')) (by simp)

theorem aliveCount_of_wallets (h : l.wallets = []) : l.aliveCount = 0 := by
  unfold aliveCount
  rw [List.map_eq_nil_iff.1 h]
  rfl

/-- A new replicate is alive. -/
theorem aliveCount_plus (l : ReplicateList) (now : Instant) (wallet id : String) :
    (l.plus now wallet id).aliveCount = l.aliveCount + 1 := by
  unfold aliveCount plus
  rw [List.countP_append]
  rfl

/-- A removal makes nobody alive. -/
theorem aliveCount_without_le (l : ReplicateList) (wallet : String) :
    (l.without wallet).aliveCount ≤ l.aliveCount := by
  unfold without
  split
  · exact List.Sublist.countP_le List.filter_sublist
  · exact Nat.le_refl _

/-- Nobody else is taken away. -/
theorem mem_wallets_without {wallet other : String} (h : other ∈ l.wallets) (hne : other ≠ wallet) :
    other ∈ (l.without wallet).wallets := by
  unfold without
  split
  · obtain ⟨r, hr, rfl⟩ := List.mem_map.1 h
    exact List.mem_map_of_mem (List.mem_filter.2 ⟨hr, by simpa using hne⟩)
  · exact h

end ReplicateList

/-! ## What others do -/

/-- Every change of a list is counted in its version. -/
theorem Step.wasRead (s : Step) {p : Pool} {id : String} {l : ReplicateList}
    (h : p.store.WasRead id l) : (s.apply p).store.WasRead id l := by
  obtain ⟨k, hk, hbecame⟩ := h
  obtain ⟨k', hk', hrevised⟩ := s.list?_revised hk
  exact ⟨k', hk', hbecame.trans ⟨hrevised.le, hrevised.same⟩⟩

namespace Event

variable {p : Pool}

/-- The event saves no task with another trust than it has. -/
def KeepsTrust (p : Pool) : Event → Prop
  | .step (.saveTask t) => ∀ u, p.store.task? t.chainTaskId = some u → t.trust = u.trust
  | _ => True

/-- Nobody who was lost or in error comes back by the event. -/
def KeepsDead (p : Pool) (e : Event) : Prop :=
  ∀ id wallet r r', p.store.replicate? id wallet = some r → r.status.isDead = true →
    (e.apply p).store.replicate? id wallet = some r' → r'.status.isDead = true

/-- A task keeps its trust through every event that saves no other. -/
theorem hasTrust {e : Event} (hk : p.store.Keyed) (he : e.KeepsTrust p) {id : String} {t : Task}
    (ht : p.store.task? id = some t) : (e.apply p).store.HasTrust id t.trust := by
  -- apart from single steps, events only make moves that are due
  have hregular : e.Regular → (e.apply p).store.HasTrust id t.trust := by
    intro hregular
    cases onTask hregular hk id with
    | kept same => exact ⟨t, same.trans ht, rfl⟩
    | inserted t' event new unknown after => exact absurd (unknown.symm.trans ht) (by simp)
    | moved t' s stored due after list =>
      obtain rfl := Option.some.inj (stored.symm.trans ht)
      exact ⟨_, after, ((p.outlook id).moved_terms s t').1⟩
  cases e with
  | step s =>
    cases s.onTask p id with
    | kept same => exact ⟨t, same.trans ht, rfl⟩
    | stored t' step of unknown after => exact absurd (unknown.symm.trans ht) (by simp)
    | saved t' old step of before version after =>
      subst step
      exact ⟨t'.saved, after, he t (of ▸ ht)⟩
  | _ => exact hregular trivial

/-- Requests on their way can rely on what others do. -/
theorem later {e : Event} (hk : p.store.Keyed) (he : e.KeepsTrust p) :
    p.store.Later (e.apply p).store := by
  refine ⟨fun {id l} hl => ?_, hasTrust hk he⟩
  exact (e.leads p).keeps (P := fun q => q.store.WasRead id l) (fun s _ _ hq => s.wasRead hq)
    (Store.wasRead_of_list? hl)

end Event

/-! ## Records within the trust target -/

/-- Nobody takes part twice in a task, no list has more replicates that count than the task wants,
and where there is no task nobody takes part. -/
structure Store.WithinTrust (s : Store) : Prop where
  distinct : s.Distinct
  bounded : ∀ {id : String} {t : Task} {l : ReplicateList}, s.task? id = some t →
    s.list? id = some l → l.aliveCount ≤ trustTarget t.trust
  closed : ∀ {id : String}, s.task? id = none → s.members id = []

namespace Store

variable {s s' : Store} {id wallet : String} {held held' : Option String}

namespace WithinTrust

theorem empty : Store.empty.WithinTrust where
  distinct := .empty
  bounded h := absurd h (by simp [Store.task?, Store.empty])
  closed _ := rfl

/-- What others do keeps the records within the trust target, unless somebody comes back. -/
theorem event {p : Pool} {e : Event} (h : p.store.WithinTrust) (hk : p.store.Keyed)
    (htrust : e.KeepsTrust p) (hmembers : e.KeepsMembers) (hdead : e.KeepsDead p) :
    (e.apply p).store.WithinTrust := by
  have hlater := e.later hk htrust
  have hnone : ∀ {id : String}, (e.apply p).store.task? id = none → p.store.task? id = none := by
    intro id hid
    cases ht : p.store.task? id with
    | none => rfl
    | some t =>
      obtain ⟨t', ht', -⟩ := hlater.task ht
      exact absurd (hid.symm.trans ht') (by simp)
  refine ⟨h.distinct.leads (e.leads p), fun {id t' l'} ht' hl' => ?_, fun {id} hid => ?_⟩
  · have hsame := e.members_apply hmembers p id
    rw [members_of_list? hl'] at hsame
    cases hl : p.store.list? id with
    | none =>
      -- the list was made by the event, and is empty
      have hempty : l'.wallets = [] := by
        rw [hsame, members, hl]
        rfl
      rw [ReplicateList.aliveCount_of_wallets hempty]
      exact Nat.zero_le _
    | some l =>
      rw [members_of_list? hl] at hsame
      have hle : l'.aliveCount ≤ l.aliveCount := by
        refine ReplicateList.aliveCount_le (h.distinct id l hl) hsame ?_
        intro wallet r r' hr hrdead hr'
        refine hdead id wallet r r' ?_ hrdead ?_
        · exact (congrArg (Option.bind · _) hl).trans hr
        · exact (congrArg (Option.bind · _) hl').trans hr'
      cases ht : p.store.task? id with
      | none =>
        -- nobody takes part in a task that is only now stored
        have hempty : l.wallets = [] := (members_of_list? hl).symm.trans (h.closed ht)
        rw [ReplicateList.aliveCount_of_wallets hempty] at hle
        exact Nat.le_trans hle (Nat.zero_le _)
      | some t =>
        obtain ⟨t'', ht'', htrust''⟩ := hlater.task ht
        obtain rfl := Option.some.inj (ht''.symm.trans ht')
        rw [htrust'']
        exact Nat.le_trans hle (h.bounded ht hl)
  · rw [e.members_apply hmembers p id]
    exact h.closed (hnone hid)

end WithinTrust

namespace Bid

theorem tasks (h : s.Bid wallet s' held held') : s'.tasks = s.tasks := by
  cases h with
  | idle same => rw [same]
  | join now stored list absent room after => rw [after]; rfl
  | leave after => rw [after, tasks_removeReplicate]

theorem task? (h : s.Bid wallet s' held held') (id : String) : s'.task? id = s.task? id := by
  unfold Store.task?
  rw [h.tasks]

/-- What a bid does to one list: nothing, or it adds a replicate of the worker where there is room,
or it takes the worker out. -/
theorem list?_cases (h : s.Bid wallet s' held held') (i : String) :
    s'.list? i = s.list? i ∨
      (∃ now t l, held' = some i ∧ s.task? i = some t ∧ s.list? i = some l ∧
        l.hasWorker wallet = false ∧ l.aliveCount < trustTarget t.trust ∧
        s'.list? i = some (l.plus now wallet i)) ∨
      ∃ l, held = some i ∧ held' = none ∧ s.list? i = some l ∧
        s'.list? i = some (l.without wallet) := by
  cases h with
  | idle same => exact .inl (by rw [same])
  | @join id t l now stored list absent room after =>
    have hlist : s'.list? i = if id = i then some (l.plus now wallet id) else s.list? i := by
      rw [after, list?_setList]
    by_cases hid : id = i
    · subst hid
      exact .inr (.inl ⟨now, t, l, rfl, stored, list, absent, room, hlist.trans (if_pos rfl)⟩)
    · exact .inl (hlist.trans (if_neg hid))
  | @leave id after =>
    have hlist := s.list?_removeReplicate id wallet i
    rw [← after] at hlist
    by_cases hid : id = i
    · subst hid
      rw [if_pos rfl] at hlist
      cases hl : s.list? id with
      | none => exact .inl (by rw [hlist, hl]; rfl)
      | some l => exact .inr (.inr ⟨l, rfl, rfl, rfl, by rw [hlist, hl]; rfl⟩)
    · exact .inl (hlist.trans (if_neg hid))

/-- The list that a bid writes stays under the id of its task. -/
theorem keyed (h : s.Bid wallet s' held held') (hk : s.Keyed) : s'.Keyed := by
  refine hk.of_lists h.tasks fun i l hl => ?_
  rcases h.list?_cases i with hsame | ⟨now, t, k, -, -, hk', -, -, hafter⟩ | ⟨k, -, -, hk', hafter⟩
  · exact hk.list (hsame.symm.trans hl)
  · obtain rfl := Option.some.inj (hafter.symm.trans hl)
    show k.chainTaskId = i
    exact hk.list hk'
  · obtain rfl := Option.some.inj (hafter.symm.trans hl)
    exact (k.without_chainTaskId wallet).trans (hk.list hk')

/-- A replicate is only added where the trust target is not reached. -/
theorem within (h : s.Bid wallet s' held held') {t : Task} {l l' : ReplicateList}
    (hl : s.list? id = some l) (hl' : s'.list? id = some l')
    (hmore : l.replicates.length < l'.replicates.length) (ht : s'.task? id = some t) :
    l'.aliveCount ≤ trustTarget t.trust := by
  rw [h.task?] at ht
  rcases h.list?_cases id with hsame | ⟨now, u, k, -, hu, hk, -, hroom, hafter⟩ |
    ⟨k, -, -, hk, hafter⟩
  · obtain rfl := Option.some.inj (hl'.symm.trans (hsame.trans hl))
    exact absurd hmore (Nat.lt_irrefl _)
  · obtain rfl := Option.some.inj (hu.symm.trans ht)
    obtain rfl := Option.some.inj (hafter.symm.trans hl')
    rw [ReplicateList.aliveCount_plus]
    exact hroom
  · obtain rfl := Option.some.inj (hk.symm.trans hl)
    obtain rfl := Option.some.inj (hafter.symm.trans hl')
    have hle := (k.wallets_without_sublist wallet).length_le
    unfold ReplicateList.wallets at hle
    rw [List.length_map, List.length_map] at hle
    exact absurd hmore (Nat.not_lt.2 hle)

/-- A bid keeps the records within the trust target, since it adds only where there is room. -/
theorem withinTrust (h : s.Bid wallet s' held held') (hs : s.WithinTrust) : s'.WithinTrust := by
  refine ⟨fun i l hl => ?_, fun {i t l} ht hl => ?_, fun {i} ht => ?_⟩
  · rcases h.list?_cases i with hsame | ⟨now, t, k, -, -, hk, habsent, -, hafter⟩ |
      ⟨k, -, -, hk, hafter⟩
    · exact hs.distinct i l (hsame.symm.trans hl)
    · obtain rfl := Option.some.inj (hafter.symm.trans hl)
      exact ReplicateList.nodup_plus (hs.distinct i k hk) habsent now i
    · obtain rfl := Option.some.inj (hafter.symm.trans hl)
      exact (hs.distinct i k hk).sublist (k.wallets_without_sublist wallet)
  · rw [h.task?] at ht
    rcases h.list?_cases i with hsame | ⟨now, u, k, -, hu, hk, -, hroom, hafter⟩ |
      ⟨k, -, -, hk, hafter⟩
    · exact hs.bounded ht (hsame.symm.trans hl)
    · obtain rfl := Option.some.inj (hu.symm.trans ht)
      obtain rfl := Option.some.inj (hafter.symm.trans hl)
      rw [ReplicateList.aliveCount_plus]
      exact hroom
    · obtain rfl := Option.some.inj (hafter.symm.trans hl)
      exact Nat.le_trans (k.aliveCount_without_le wallet) (hs.bounded ht hk)
  · rw [h.task?] at ht
    rcases h.list?_cases i with hsame | ⟨now, u, k, -, hu, -, -, -, -⟩ | ⟨k, -, -, hk, hafter⟩
    · rw [members_congr hsame]
      exact hs.closed ht
    · exact absurd (hu.symm.trans ht) (by simp)
    · have hempty : k.wallets = [] := (members_of_list? hk).symm.trans (hs.closed ht)
      rw [members_of_list? hafter]
      exact List.sublist_nil.1 (hempty ▸ k.wallets_without_sublist wallet)

/-- Who takes part still does so after a bid, unless it was the worker's place by this request. -/
theorem mem_members (h : s.Bid wallet s' held held') {other : String}
    (hstays : other = wallet → held ≠ some id) (hmem : other ∈ s.members id) :
    other ∈ s'.members id := by
  rcases h.list?_cases id with hsame | ⟨now, t, k, -, -, hk, -, -, hafter⟩ |
    ⟨k, hheld, -, hk, hafter⟩
  · rw [members_congr hsame]
    exact hmem
  · rw [members_of_list? hk] at hmem
    rw [members_of_list? hafter, ReplicateList.wallets_plus]
    exact List.mem_append_left _ hmem
  · rw [members_of_list? hk] at hmem
    rw [members_of_list? hafter]
    exact ReplicateList.mem_wallets_without hmem fun hother => hstays hother hheld

/-- The worker takes part where its request leaves a replicate. -/
theorem member (h : s.Bid wallet s' held (some id))
    (hbefore : held = some id → wallet ∈ s.members id) : wallet ∈ s'.members id := by
  cases h with
  | idle same =>
    rw [same]
    exact hbefore rfl
  | @join id t l now stored list absent room after =>
    have hlist : s'.list? id = some (l.plus now wallet id) := by
      rw [after, list?_setList, if_pos rfl]
    rw [members_of_list? hlist, ReplicateList.wallets_plus]
    exact List.mem_append_right _ (List.mem_singleton_self wallet)

/-- It did not take part there before, unless by this request. -/
theorem newcomer (h : s.Bid wallet s' held (some id)) : held = some id ∨ wallet ∉ s.members id := by
  cases h with
  | idle same => exact .inl rfl
  | @join id t l now stored list absent room after =>
    refine .inr fun hmem => ?_
    rw [members_of_list? list] at hmem
    exact absurd ((ReplicateList.hasWorker_iff.2 hmem).symm.trans absent) (by simp)

end Bid

end Store

/-! ## Requests on their way -/

/-- A worker's request for work. -/
structure Inquiry where
  wallet : String
  process : Process (Except PoolError (Option Authorization))

/-- The request is over, and the worker got this authorization. -/
def Inquiry.Got (x : Inquiry) (a : Authorization) : Prop := x.process = .done (.ok (some a))

/-- A pool that workers ask for work, with all their requests, oldest first. -/
structure Reception where
  pool : Pool
  inquiries : List Inquiry

namespace Reception

/-- What may happen. -/
inductive Move where
  /-- Something that is no call of a request. -/
  | event (e : Event)
  /-- A worker asks for work; nothing is called yet. -/
  | ask (lastBlock : UInt64) (wallet : String)
  /-- A request makes its next call. -/
  | go (i : Nat)
  /-- A request that waits for a number goes on with this one. -/
  | choose (i n : Nat)

/-- The reception after a move. -/
def apply (o : Reception) : Move → Reception
  | .event e => { o with pool := e.apply o.pool }
  | .ask lastBlock wallet =>
    { o with inquiries := o.inquiries ++ [⟨wallet, (findAuthorization lastBlock wallet).run⟩] }
  | .go i =>
    match o.inquiries[i]? with
    | none => o
    | some x =>
      match x.process with
      | .done _ | .choose _ => o
      | .call after next =>
        ⟨after o.pool, o.inquiries.set i { x with process := next o.pool }⟩
  | .choose i n =>
    match o.inquiries[i]? with
    | none => o
    | some x =>
      match x.process with
      | .done _ | .call .. => o
      | .choose next => { o with inquiries := o.inquiries.set i { x with process := next n } }

/-- Moves, each allowed where it is made, lead from one reception to another. -/
def Runs (allowed : Reception → Move → Prop) : Reception → Reception → Prop :=
  Relation.ReflTransGen fun o o' => ∃ m, allowed o m ∧ o.apply m = o'

/-- What every allowed move keeps is kept by the run. -/
theorem Runs.keeps {allowed : Reception → Move → Prop} {P : Reception → Prop} {start o : Reception}
    (hkeep : ∀ o m, allowed o m → P o → P (o.apply m)) (h : start.Runs allowed o)
    (hstart : P start) : P o := by
  induction h with
  | refl => exact hstart
  | tail _ hstep ih =>
    obtain ⟨m, hm, rfl⟩ := hstep
    exact hkeep _ m hm ih

/-- Nothing but a request changes what a request relies on: no save changes the trust of a task. -/
def KeepsTrust (o : Reception) (m : Move) : Prop := ∀ e, m = .event e → e.KeepsTrust o.pool

/-- As before, and replicates are added and removed by the requests alone, and nobody who was lost
or in error comes back. -/
def KeepsDead (o : Reception) (m : Move) : Prop :=
  ∀ e, m = .event e → e.KeepsTrust o.pool ∧ e.KeepsMembers ∧ e.KeepsDead o.pool

/-- The reception after moves in this order. -/
def after (moves : List Move) (o : Reception) : Reception := moves.foldl apply o

/-- Requests may make their calls in any order. -/
theorem Runs.after {start o : Reception} (h : start.Runs KeepsDead o) (moves : List Move)
    (hmoves : ∀ e, .event e ∉ moves) : start.Runs KeepsDead (o.after moves) := by
  induction moves generalizing o with
  | nil => exact h
  | cons m rest ih =>
    have hm : o.KeepsDead m := by
      rintro e rfl
      exact absurd List.mem_cons_self (hmoves e)
    exact ih (.tail h ⟨m, hm, rfl⟩) fun e he => hmoves e (List.mem_cons_of_mem m he)

variable {o : Reception} {held : Nat → Option String}

/-- Every request is a worker's bid, with the task in which it left a replicate so far. -/
structure Accounted (o : Reception) (held : Nat → Option String) : Prop where
  keyed : o.pool.store.Keyed
  bids : ∀ {i : Nat} {x : Inquiry}, o.inquiries[i]? = some x →
    x.process.Bids x.wallet (fun r held _ => held = Process.granted r) (held i) o.pool.store

/-- What the next call of a request does: nothing if the request is over or waits for a number, and
else it is a bid of its worker. -/
inductive Went (o : Reception) (held : Nat → Option String) (i : Nat) (o' : Reception) : Prop where
  | ended (same : o' = o)
  | called (x y : Inquiry) (h : Option String) (before : o.inquiries[i]? = some x)
      (wallet : y.wallet = x.wallet) (after : o'.inquiries = o.inquiries.set i y)
      (bid : o.pool.store.Bid x.wallet o'.pool.store (held i) h)
      (accounted : o'.Accounted (Function.update held i h))

/-- A number is only for a request that waits for one, and no record changes with it. -/
theorem apply_choose_cases (o : Reception) (i n : Nat) :
    o.apply (.choose i n) = o ∨ ∃ wallet next, o.inquiries[i]? = some ⟨wallet, .choose next⟩ ∧
      o.apply (.choose i n) = { o with inquiries := o.inquiries.set i ⟨wallet, next n⟩ } := by
  dsimp only [apply]
  cases hx : o.inquiries[i]? with
  | none => exact .inl rfl
  | some x =>
    obtain ⟨wallet, process⟩ := x
    cases process with
    | done a => exact .inl rfl
    | call after next => exact .inl rfl
    | choose next => exact .inr ⟨wallet, next, rfl, rfl⟩

/-! ### Where the requests are -/

section Lists

variable {xs : List Inquiry} {x y z : Inquiry} {i j : Nat}

/-- After a request went on it is the one that was put down, and the others are as before. -/
theorem getElem?_set_cases (h : (xs.set i y)[j]? = some z) :
    j = i ∧ z = y ∨ j ≠ i ∧ xs[j]? = some z := by
  rw [List.getElem?_set] at h
  split at h
  · next hij =>
    split at h
    · exact .inl ⟨hij.symm, (Option.some.inj h).symm⟩
    · exact absurd h (by simp)
  · next hij => exact .inr ⟨Ne.symm hij, h⟩

/-- A new request is the last one, and the others are as before. -/
theorem getElem?_snoc_cases (h : (xs ++ [x])[j]? = some z) :
    j = xs.length ∧ z = x ∨ j ≠ xs.length ∧ xs[j]? = some z := by
  rcases Nat.lt_trichotomy j xs.length with hlt | heq | hgt
  · rw [List.getElem?_append_left hlt] at h
    exact .inr ⟨Nat.ne_of_lt hlt, h⟩
  · subst heq
    rw [List.getElem?_concat_length] at h
    exact .inl ⟨rfl, (Option.some.inj h).symm⟩
  · have hlength : (xs ++ [x]).length ≤ j := by
      rw [List.length_append]
      exact hgt
    rw [List.getElem?_eq_none hlength] at h
    exact absurd h (by simp)

end Lists

/-! ### Every move -/

namespace Accounted

/-- What others do leaves every request a bid, since requests can rely on it. -/
theorem event (h : o.Accounted held) {e : Event} (he : e.KeepsTrust o.pool) :
    (o.apply (.event e)).Accounted held := by
  have hlater := e.later h.keyed he
  exact ⟨e.keyed h.keyed, fun hx => (h.bids hx).later hlater fun _ _ hR => hR⟩

/-- A new request is a bid from its first call on, and left no replicate yet. -/
theorem ask (h : o.Accounted held) (lastBlock : UInt64) (wallet : String) :
    (o.apply (.ask lastBlock wallet)).Accounted
      (Function.update held o.inquiries.length none) := by
  refine ⟨h.keyed, fun {j x} hx => ?_⟩
  rcases getElem?_snoc_cases hx with ⟨rfl, rfl⟩ | ⟨hne, hx⟩
  · rw [Function.update_self]
    exact Process.bids_findAuthorization lastBlock wallet _
  · rw [Function.update_of_ne hne]
    exact h.bids hx

/-- The next call of a request is the bid that its process promised. -/
theorem go (h : o.Accounted held) (i : Nat) : o.Went held i (o.apply (.go i)) := by
  cases hx : o.inquiries[i]? with
  | none =>
    refine .ended ?_
    dsimp only [apply]
    rw [hx]
  | some x =>
    obtain ⟨wallet, process⟩ := x
    cases process with
    | done a =>
      refine .ended ?_
      dsimp only [apply]
      rw [hx]
    | choose next =>
      refine .ended ?_
      dsimp only [apply]
      rw [hx]
    | call after next =>
      have hgo : o.apply (.go i) =
          ⟨after o.pool, o.inquiries.set i ⟨wallet, next o.pool⟩⟩ := by
        dsimp only [apply]
        rw [hx]
      obtain ⟨held', hbid, hnext⟩ := h.bids hx o.pool (.refl _) h.keyed
      rw [hgo]
      refine .called _ ⟨wallet, next o.pool⟩ held' hx rfl rfl hbid
        ⟨hbid.keyed h.keyed, fun {j z} hz => ?_⟩
      rcases getElem?_set_cases hz with ⟨rfl, rfl⟩ | ⟨hne, hz⟩
      · rw [Function.update_self]
        exact hnext
      · rw [Function.update_of_ne hne]
        exact (h.bids hz).later hbid.later fun _ _ hR => hR

/-- Whatever number a request is given, it goes on as a bid. -/
theorem choose (h : o.Accounted held) (i n : Nat) : (o.apply (.choose i n)).Accounted held := by
  rcases o.apply_choose_cases i n with hsame | ⟨wallet, next, hx, hafter⟩
  · rw [hsame]
    exact h
  · rw [hafter]
    refine ⟨h.keyed, fun {j z} hz => ?_⟩
    rcases getElem?_set_cases hz with ⟨rfl, rfl⟩ | ⟨hne, hz⟩
    · exact h.bids hx n
    · exact h.bids hz

end Accounted

/-- The requests are bids, the records are within the trust target, and each worker takes part in
the task in which one of its requests left a replicate, and in none by two of them. -/
structure Entered (o : Reception) (held : Nat → Option String) : Prop where
  accounted : o.Accounted held
  within : o.pool.store.WithinTrust
  member : ∀ {i : Nat} {x : Inquiry} {id : String}, o.inquiries[i]? = some x →
    held i = some id → x.wallet ∈ o.pool.store.members id
  once : ∀ {i j : Nat} {x y : Inquiry} {id : String}, o.inquiries[i]? = some x →
    o.inquiries[j]? = some y → x.wallet = y.wallet → held i = some id → held j = some id → i = j

namespace Entered

/-- What others do takes nobody out of a list. -/
theorem event (h : o.Entered held) {e : Event} (htrust : e.KeepsTrust o.pool)
    (hmembers : e.KeepsMembers) (hdead : e.KeepsDead o.pool) :
    (o.apply (.event e)).Entered held := by
  refine ⟨h.accounted.event htrust, h.within.event h.accounted.keyed htrust hmembers hdead,
    fun {i x id} hx hid => ?_, h.once⟩
  show x.wallet ∈ (e.apply o.pool).store.members id
  rw [e.members_apply hmembers]
  exact h.member hx hid

/-- Who asks anew takes part by its older requests only. -/
theorem ask (h : o.Entered held) (lastBlock : UInt64) (wallet : String) :
    (o.apply (.ask lastBlock wallet)).Entered (Function.update held o.inquiries.length none) := by
  -- the new request left no replicate, so what is said of replicates is about the old ones
  have hold : ∀ {j : Nat} {x : Inquiry} {id : String},
      (o.apply (.ask lastBlock wallet)).inquiries[j]? = some x →
      Function.update held o.inquiries.length none j = some id →
      o.inquiries[j]? = some x ∧ held j = some id := by
    intro j x id hx hid
    rcases getElem?_snoc_cases hx with ⟨rfl, -⟩ | ⟨hne, hx⟩
    · rw [Function.update_self] at hid
      exact absurd hid (by simp)
    · rw [Function.update_of_ne hne] at hid
      exact ⟨hx, hid⟩
  refine ⟨h.accounted.ask lastBlock wallet, h.within, fun hx hid => ?_,
    fun hx hy hsame hi hj => ?_⟩
  · obtain ⟨hx, hid⟩ := hold hx hid
    exact h.member hx hid
  · obtain ⟨hx, hi⟩ := hold hx hi
    obtain ⟨hy, hj⟩ := hold hy hj
    exact h.once hx hy hsame hi hj

/-- A call adds its worker where no request of the same worker left a replicate. -/
theorem go (h : o.Entered held) (i : Nat) : ∃ held', (o.apply (.go i)).Entered held' := by
  cases h.accounted.go i with
  | ended same => exact ⟨held, same.symm ▸ h⟩
  | called x y held' before wallet after bid accounted =>
    generalize o.apply (.go i) = o' at after bid accounted
    have hlist : ∀ {j : Nat} {z : Inquiry}, o'.inquiries[j]? = some z →
        j = i ∧ z = y ∨ j ≠ i ∧ o.inquiries[j]? = some z := fun hz =>
      getElem?_set_cases (after ▸ hz)
    -- another request of the same worker left its replicate elsewhere
    have hother : ∀ {j : Nat} {z : Inquiry} {id : String}, j ≠ i → o.inquiries[j]? = some z →
        z.wallet = x.wallet → held j = some id → held i ≠ some id ∧ held' ≠ some id := by
      intro j z id hne hz hsame hj
      have hi : held i ≠ some id := fun hi => hne (h.once hz before hsame hj hi)
      refine ⟨hi, fun hheld' => ?_⟩
      rcases (hheld' ▸ bid).newcomer with hi' | habsent
      · exact hi hi'
      · exact habsent (hsame ▸ h.member hz hj)
    refine ⟨_, accounted, bid.withinTrust h.within, fun {j z id} hz hid => ?_,
      fun {j k z z'} id hz hz' hsame hj hk => ?_⟩
    · rcases hlist hz with ⟨rfl, rfl⟩ | ⟨hne, hz⟩
      · rw [Function.update_self] at hid
        rw [wallet]
        exact (hid ▸ bid).member (h.member before)
      · rw [Function.update_of_ne hne] at hid
        exact bid.mem_members (fun hsame => (hother hne hz hsame hid).1) (h.member hz hid)
    · rcases hlist hz with ⟨rfl, rfl⟩ | ⟨hne, hz⟩
      · rcases hlist hz' with ⟨rfl, -⟩ | ⟨hne', hz'⟩
        · rfl
        · rw [Function.update_self] at hj
          rw [Function.update_of_ne hne'] at hk
          exact absurd hj (hother hne' hz' (hsame.symm.trans wallet) hk).2
      · rw [Function.update_of_ne hne] at hj
        rcases hlist hz' with ⟨rfl, rfl⟩ | ⟨hne', hz'⟩
        · rw [Function.update_self] at hk
          exact absurd hk (hother hne hz (hsame.trans wallet) hj).2
        · rw [Function.update_of_ne hne'] at hk
          exact h.once hz hz' hsame hj hk

/-- A number that is chosen changes nobody's part. -/
theorem choose (h : o.Entered held) (i n : Nat) : (o.apply (.choose i n)).Entered held := by
  have haccounted := h.accounted.choose i n
  rcases o.apply_choose_cases i n with hsame | ⟨wallet, next, hx, hafter⟩
  · rw [hsame]
    exact h
  · rw [hafter] at haccounted ⊢
    -- every request is still the same worker's
    have hold : ∀ {j : Nat} {z : Inquiry},
        (o.inquiries.set i ⟨wallet, next n⟩)[j]? = some z →
        ∃ y, o.inquiries[j]? = some y ∧ y.wallet = z.wallet := by
      intro j z hz
      rcases getElem?_set_cases hz with ⟨rfl, rfl⟩ | ⟨-, hz⟩
      · exact ⟨_, hx, rfl⟩
      · exact ⟨z, hz, rfl⟩
    refine ⟨haccounted, h.within, fun {j z id} hz hj => ?_,
      fun {j k z z' id} hz hz' hsame hj hk => ?_⟩
    · obtain ⟨y, hy, hwallet⟩ := hold hz
      exact hwallet ▸ h.member hy hj
    · obtain ⟨y, hy, hwallet⟩ := hold hz
      obtain ⟨y', hy', hwallet'⟩ := hold hz'
      exact h.once hy hy' (hwallet.trans (hsame.trans hwallet'.symm)) hj hk

end Entered

/-! ### Runs -/

variable {start : Reception}

/-- At any time every request is a bid of its worker. -/
theorem exists_accounted (hstart : start.pool.IsNew) (hnone : start.inquiries = [])
    (hrun : start.Runs KeepsTrust o) : ∃ held, o.Accounted held := by
  refine hrun.keeps (P := fun o => ∃ held, o.Accounted held) ?_ ⟨fun _ => none,
    hstart.wellKept.keyed, fun hx => absurd (hnone ▸ hx) (by simp)⟩
  rintro o m hm ⟨held, h⟩
  cases m with
  | event e => exact ⟨_, h.event (hm e rfl)⟩
  | ask lastBlock wallet => exact ⟨_, h.ask lastBlock wallet⟩
  | go i =>
    cases h.go i with
    | ended same => exact ⟨held, same.symm ▸ h⟩
    | called x y held' before wallet after bid accounted => exact ⟨_, accounted⟩
  | choose i n => exact ⟨held, h.choose i n⟩

/-- At any time, if nobody comes back, the records are within the trust target. -/
theorem exists_entered (hstart : start.pool.IsNew) (hnone : start.inquiries = [])
    (hrun : start.Runs KeepsDead o) : ∃ held, o.Entered held := by
  have hempty : start.Entered fun _ => none := by
    refine ⟨⟨hstart.wellKept.keyed, fun hx => absurd (hnone ▸ hx) (by simp)⟩, ?_,
      fun _ hid => absurd hid (by simp), fun _ _ _ hi => absurd hi (by simp)⟩
    rw [hstart.store]
    exact .empty
  refine hrun.keeps (P := fun o => ∃ held, o.Entered held) ?_ ⟨_, hempty⟩
  rintro o m hm ⟨held, h⟩
  cases m with
  | event e =>
    obtain ⟨htrust, hmembers, hdead⟩ := hm e rfl
    exact ⟨_, h.event htrust hmembers hdead⟩
  | ask lastBlock wallet => exact ⟨_, h.ask lastBlock wallet⟩
  | go i => exact h.go i
  | choose i n => exact ⟨held, h.choose i n⟩

/-- Admissions stay within the trust target, however the requests of any number of workers and
everything else that happens to the pool are interleaved.

* Right after a call of a request that makes the list of a task longer, the list has at most as
  many replicates that are neither lost nor in error as the task trusts, and one at least.
* That holds in every state, of every list, as long as nobody who was lost or in error comes back;
  and then nobody takes part twice in a task, and no two requests of a worker are granted the same
  task. -/
theorem admissions_within_trust (hstart : start.pool.IsNew) (hnone : start.inquiries = []) :
    (∀ o, start.Runs KeepsTrust o → ∀ i id t l l', o.pool.store.list? id = some l →
      (o.apply (.go i)).pool.store.list? id = some l' →
      l.replicates.length < l'.replicates.length →
      (o.apply (.go i)).pool.store.task? id = some t →
      (l'.replicates.filter fun r => r.status ≠ .workerLost ∧ r.status ≠ .error).length ≤
        max t.trust.toNat 1) ∧
    ∀ o, start.Runs KeepsDead o →
      (∀ id t l, o.pool.store.task? id = some t → o.pool.store.list? id = some l →
        (l.replicates.filter fun r => r.status ≠ .workerLost ∧ r.status ≠ .error).length ≤
          max t.trust.toNat 1) ∧
      (∀ id l, o.pool.store.list? id = some l → (l.replicates.map (·.wallet)).Nodup) ∧
      ∀ (i j : Nat) (x y : Inquiry) (a b : Authorization), o.inquiries[i]? = some x →
        o.inquiries[j]? = some y → i ≠ j → x.wallet = y.wallet → x.Got a → y.Got b →
          a.chainTaskId ≠ b.chainTaskId := by
  refine ⟨fun o hrun i id t l l' hl hl' hmore ht => ?_, fun o hrun => ?_⟩
  · obtain ⟨held, h⟩ := exists_accounted hstart hnone hrun
    rw [← Pool.aliveCount_eq]
    cases h.go i with
    | ended same =>
      obtain rfl := Option.some.inj (hl'.symm.trans (same ▸ hl))
      exact absurd hmore (Nat.lt_irrefl _)
    | called x y held' before wallet after bid accounted => exact bid.within hl hl' hmore ht
  · obtain ⟨held, h⟩ := exists_entered hstart hnone hrun
    refine ⟨fun id t l ht hl => ?_, fun id l hl => h.within.distinct id l hl,
      fun i j x y a b hx hy hne hsame ha hb hid => ?_⟩
    · rw [← Pool.aliveCount_eq]
      exact h.within.bounded ht hl
    · -- a request that is over left its replicate where it was granted the task
      have hheld : ∀ {i : Nat} {x : Inquiry} {a : Authorization}, o.inquiries[i]? = some x →
          x.Got a → held i = some a.chainTaskId := by
        intro i x a hx ha
        have hbids := h.accounted.bids hx
        rw [ha] at hbids
        exact hbids
      exact hne (h.once hx hy hsame (hheld hx ha) (hid ▸ hheld hy hb))

/-- A pool with one task that has one place, and two workers that ask for work at once. -/
def contested : Reception where
  pool := Pool.blank.after [
    .insertTask (Pool.plainIn "0x1" .initialized),
    .addWorker (.fresh .epoch "0xa" 1),
    .addWorker (.fresh .epoch "0xb" 1),
    .createList "0x1"]
  inquiries := [
    ⟨"0xa", (findAuthorization 1 "0xa").run⟩,
    ⟨"0xb", (findAuthorization 1 "0xb").run⟩]

/-- The calls that request `i` makes before its scan, the number of rounds it is given, and the
first calls of the scan. -/
def callsOf (i rounds calls : Nat) : List Move :=
  List.replicate 4 (.go i) ++ .choose i rounds :: List.replicate calls (.go i)

/-- These moves are all of the request itself. -/
theorem event_not_mem_callsOf (i rounds calls : Nat) (e : Event) :
    .event e ∉ callsOf i rounds calls := by
  simp [callsOf]

/-- Nothing that comes before the two requests adds a replicate. -/
theorem runs_contested : Runs KeepsDead ⟨.blank, []⟩ contested := by
  have hevent : ∀ {o : Reception} {s : Step},
      (∀ id wallet, o.pool.store.replicate? id wallet = none) →
      (Event.step s).KeepsTrust o.pool → ¬ s.Recruits → o.KeepsDead (.event (.step s)) := by
    intro o s hnone htrust hmembers e he
    obtain rfl := Move.event.inj he
    exact ⟨htrust, hmembers, fun id wallet r r' hr => absurd ((hnone id wallet).symm.trans hr)
      (by simp)⟩
  have hstart : Runs KeepsDead ⟨.blank, []⟩ ⟨.blank, []⟩ := .refl
  have htask := hstart.tail ⟨.event (.step (.insertTask (Pool.plainIn "0x1" .initialized))),
    hevent (fun _ _ => rfl) trivial not_false, rfl⟩
  have hfirst := htask.tail ⟨.event (.step (.addWorker (.fresh .epoch "0xa" 1))),
    hevent (fun _ _ => rfl) trivial not_false, rfl⟩
  have hsecond := hfirst.tail ⟨.event (.step (.addWorker (.fresh .epoch "0xb" 1))),
    hevent (fun _ _ => rfl) trivial not_false, rfl⟩
  have hlist := hsecond.tail ⟨.event (.step (.createList "0x1")),
    hevent (fun _ _ => rfl) trivial not_false, rfl⟩
  have hask := hlist.tail ⟨.ask 1 "0xa", (fun _ he => nomatch he), rfl⟩
  exact hask.tail ⟨.ask 1 "0xb", (fun _ he => nomatch he), rfl⟩

/-- The second worker finds room in the list, then the first one is admitted, and then the second
one takes the lock and reads the list again. -/
theorem admissions_within_trust_contested :
    (∃ o l', Runs KeepsTrust ⟨.blank, []⟩ o ∧ o.pool.store.list? "0x1" = some (.empty "0x1") ∧
      (o.apply (.go 0)).pool.store.list? "0x1" = some l' ∧ l'.wallets = ["0xa"] ∧
      (l'.replicates.filter fun r => r.status ≠ .workerLost ∧ r.status ≠ .error).length ≤ 1) ∧
    ∃ o x y a l, Runs KeepsDead ⟨.blank, []⟩ o ∧ o.inquiries = [x, y] ∧ x.Got a ∧
      a.chainTaskId = "0x1" ∧ y.process = .done (.ok none) ∧
      o.pool.store.list? "0x1" = some l ∧ l.wallets = ["0xa"] ∧
      (l.replicates.filter fun r => r.status ≠ .workerLost ∧ r.status ≠ .error).length ≤ 1 := by
  have hnew : (⟨.blank, []⟩ : Reception).pool.IsNew := Pool.isNew_blank
  obtain ⟨hadded, halways⟩ := admissions_within_trust hnew rfl
  refine ⟨?_, ?_⟩
  · have hrun := (runs_contested.after _ (event_not_mem_callsOf 1 1 3)).after _
      (event_not_mem_callsOf 0 1 6)
    have hrun' : Runs KeepsTrust ⟨.blank, []⟩ _ :=
      Relation.ReflTransGen.mono (fun _ _ ⟨m, hm, heq⟩ => ⟨m, fun e he => (hm e he).1, heq⟩)
        _ _ hrun
    exact ⟨_, _, hrun', rfl, rfl, rfl, hadded _ hrun' 0 "0x1" _ _ _ rfl rfl (by decide) rfl⟩
  · have hrun := ((runs_contested.after _ (event_not_mem_callsOf 1 2 3)).after _
      (event_not_mem_callsOf 0 1 10)).after (List.replicate 7 (.go 1)) (by simp)
    exact ⟨_, _, _, _, _, hrun, rfl, rfl, rfl, rfl, rfl, rfl, (halways _ hrun).1 "0x1" _ _ rfl rfl⟩

end Reception

end ComputePool
