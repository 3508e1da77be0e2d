import ComputePool.Proofs.Queue.Ledger
import ComputePool.Proofs.WellKept
import ComputePool.Queue.Waiting
import Mathlib.Data.Finset.Card

/-!
# Sessions at a counter

A session is all that happens at one counter: requests are offered, taken at once, pruned, or waited
for, while time passes. Takers come one after the other and are named by their number. Who can go on
may do so at any time and in any order (`Session.Move.turn`); a settling is such turns one after the
other (`Counter.settle_eq_turns`).

A session notes down the requests that were accepted, those that were taken at once and those that
were dropped; the counter itself notes down what takers got. These notes are a ledger of the queue
(`Session.ledger_apply`, `Session.Reachable.ledger`), and what is promised of the queue follows from
its balance: `queue_bookkeeping`.
-/

namespace ComputePool

namespace Counter

variable (who : Nat) (c : Counter)

/-- A taker who is to look for a request does so, before any other. -/
def turn (who : Nat) (c : Counter) : Counter :=
  if who ∈ c.ready then { c with ready := c.ready.erase who }.attempt who else c

/-- What is looked for depends on the queue alone. -/
theorem attempt_eq :
    c.attempt who = { c with
      queue := c.queue.pop.2
      bell := if c.queue.pop.1.isSome then c.bell.quiet else c.bell.listen who
      served := c.served ++ c.queue.pop.1.toList.map (who, ·) } := by
  unfold attempt
  rcases c.queue.pop with ⟨_ | r, q⟩
  · show _ = Counter.mk q (c.bell.listen who) c.ready (c.served ++ [])
    rw [List.append_nil]
  · rfl

theorem turn_cons (rest : List Nat) :
    { c with ready := who :: rest }.turn who = { c.attempt who with ready := rest } := by
  unfold turn
  rw [if_pos List.mem_cons_self, attempt_eq, attempt_eq]
  dsimp only
  rw [List.erase_cons_head]

/-- Settling is a turn of everyone who can go on, one after the other. -/
theorem settle_eq_turns : c.settle = c.ready.foldl (fun c who => c.turn who) c := by
  have hturns : ∀ (l : List Nat) (c : Counter),
      l.foldl (fun c who => c.turn who) { c with ready := l } =
        { l.foldl (fun c who => c.attempt who) c with ready := [] } := by
    intro l
    induction l with
    | nil => exact fun _ => rfl
    | cons who rest ih =>
      intro c
      rw [List.foldl_cons, turn_cons]
      exact ih (c.attempt who)
  exact (hturns c.ready c).symm

end Counter

/-- A counter in use. -/
structure Session where
  now : Instant
  counter : Counter
  /-- The number of takers that came. -/
  arrivals : Nat
  /-- The accepted requests, oldest first. -/
  accepted : List Request
  /-- The requests that were taken at once. -/
  taken : List Request
  /-- The requests that were dropped. -/
  dropped : List Request

namespace Session

/-- What may happen. -/
inductive Move where
  | offer (t : Task)
  | tryTake
  | prune
  | advance (ms : Nat)
  /-- A taker comes. -/
  | arrive
  /-- A taker who can go on does so. -/
  | turn (who : Nat)
  | settle

/-- A session at a new counter. -/
def opened (now : Instant) (ttl : Span) : Session := ⟨now, .empty ttl, 0, [], [], []⟩

/-- The queue at the counter. -/
def queue (s : Session) : UpdateQueue := s.counter.queue

/-- The requests that were accepted and are not queued any more, by where they went. -/
def gone (s : Session) : List Request := s.counter.served.map (·.2) ++ s.taken ++ s.dropped

/-- The session after a move. -/
def apply (s : Session) : Move → Session
  | .offer t =>
    let (ok, counter) := s.counter.offer s.now t
    { s with counter, accepted := s.accepted ++ if ok then [s.queue.requestFor s.now t] else [] }
  | .tryTake =>
    let (r, queue) := s.queue.pop
    { s with counter := { s.counter with queue }, taken := s.taken ++ r.toList }
  | .prune =>
    let queue := (s.queue.prune s.now).2
    { s with counter := { s.counter with queue }, dropped := s.dropped ++ s.queue.departed queue }
  | .advance ms => { s with now := s.now.plusMillis ms }
  | .arrive => { s with counter := s.counter.arrive s.arrivals, arrivals := s.arrivals + 1 }
  | .turn who => { s with counter := s.counter.turn who }
  | .settle => { s with counter := s.counter.settle }

/-- The session after moves, one after the other. -/
def after (moves : List Move) (s : Session) : Session := moves.foldl apply s

/-- The session began at a new counter. -/
def Reachable (s : Session) : Prop := ∃ now ttl moves, (opened now ttl).after moves = s

variable {s : Session}

theorem after_append (moves moves' : List Move) (s : Session) :
    s.after (moves ++ moves') = (s.after moves).after moves' := List.foldl_append

theorem Reachable.after (h : s.Reachable) (moves : List Move) : (s.after moves).Reachable := by
  obtain ⟨now, ttl, moves₀, rfl⟩ := h
  exact ⟨now, ttl, moves₀ ++ moves, after_append _ _ _⟩

theorem reachable_opened (now : Instant) (ttl : Span) : (opened now ttl).Reachable :=
  ⟨now, ttl, [], rfl⟩

/-- Settling is turns. -/
theorem settle_eq_turns (s : Session) :
    s.apply .settle = s.after (s.counter.ready.map .turn) := by
  have hturns : ∀ (l : List Nat) (s : Session), s.after (l.map .turn) =
      { s with counter := l.foldl (fun c who => c.turn who) s.counter } := by
    intro l
    induction l with
    | nil => exact fun _ => rfl
    | cons who rest ih => exact fun s => ih (s.apply (.turn who))
  rw [hturns, ← Counter.settle_eq_turns]
  rfl

/-- What every move other than settling keeps, and a new session has, is had by all sessions. -/
theorem Reachable.induction {P : Session → Prop} (h : s.Reachable)
    (hopened : ∀ now ttl, P (opened now ttl))
    (happly : ∀ s m, m ≠ .settle → P s → P (s.apply m)) : P s := by
  obtain ⟨now, ttl, moves, rfl⟩ := h
  -- by induction on the moves; a settling is replaced by its turns
  have hturns : ∀ (l : List Nat) (s : Session), P s → P (s.after (l.map .turn)) := by
    intro l
    induction l with
    | nil => exact fun _ hs => hs
    | cons who rest ih => exact fun s hs => ih _ (happly s (.turn who) nofun hs)
  have hmoves : ∀ (moves : List Move) (s : Session), P s → P (s.after moves) := by
    intro moves
    induction moves with
    | nil => exact fun _ hs => hs
    | cons m rest ih =>
      intro s hs
      refine ih (s.apply m) ?_
      by_cases hm : m = .settle
      · rw [hm, settle_eq_turns]
        exact hturns _ s hs
      · exact happly s m hm hs
  exact hmoves moves _ (hopened now ttl)

/-! ## The ledger -/

/-- Every move keeps the notes in balance. -/
theorem ledger_apply {m : Move} (hm : m ≠ .settle) (h : s.queue.Ledger s.accepted s.gone) :
    (s.apply m).queue.Ledger (s.apply m).accepted (s.apply m).gone := by
  cases m with
  | offer t =>
    have hoffer := h.offer s.now t
    have heq : s.apply (.offer t) = { s with
        counter := (s.counter.offer s.now t).2
        accepted := s.accepted ++
          if (s.counter.offer s.now t).1 then [s.queue.requestFor s.now t] else [] } := rfl
    have hqueue : (s.counter.offer s.now t).2.queue = (s.queue.offer s.now t).2 ∧
        (s.counter.offer s.now t).2.served = s.counter.served ∧
        (s.counter.offer s.now t).1 = (s.queue.offer s.now t).1 := by
      unfold Counter.offer queue
      rcases s.counter.queue.offer s.now t with ⟨_ | _, q⟩
      · exact ⟨rfl, rfl, rfl⟩
      · exact ⟨rfl, rfl, rfl⟩
    unfold gone queue at *
    rw [heq]
    dsimp only
    rw [hqueue.1, hqueue.2.1, hqueue.2.2]
    exact hoffer
  | tryTake =>
    refine h.pop.perm ?_
    show (s.gone ++ s.queue.pop.1.toList).Perm
      (s.counter.served.map (·.2) ++ (s.taken ++ s.queue.pop.1.toList) ++ s.dropped)
    unfold gone
    rw [← List.append_assoc, List.append_assoc (_ ++ s.taken), List.append_assoc (_ ++ s.taken)]
    exact List.perm_append_comm.append_left _
  | prune =>
    have hprune := h.prune s.now
    unfold gone at hprune
    rw [List.append_assoc (_ ++ s.taken)] at hprune
    exact hprune
  | advance ms => exact h
  | arrive => exact h
  | turn who =>
    show (s.counter.turn who).queue.Ledger s.accepted
      ((s.counter.turn who).served.map (·.2) ++ s.taken ++ s.dropped)
    unfold Counter.turn
    split
    · rw [Counter.attempt_eq]
      refine h.pop.perm ?_
      show (s.gone ++ s.queue.pop.1.toList).Perm
        ((s.counter.served ++ s.queue.pop.1.toList.map (who, ·)).map (·.2) ++ s.taken ++ s.dropped)
      have hsame : (s.queue.pop.1.toList.map (who, ·)).map (·.2) = s.queue.pop.1.toList := by
        rw [List.map_map]
        exact List.map_id _
      rw [List.map_append, hsame]
      unfold gone
      simp only [List.append_assoc]
      refine List.Perm.append_left _ ?_
      rw [← List.append_assoc s.taken]
      exact List.perm_append_comm
    · exact h
  | settle => exact absurd rfl hm

/-- The notes of every session are in balance. -/
theorem Reachable.ledger (h : s.Reachable) : s.queue.Ledger s.accepted s.gone :=
  h.induction (P := fun s => s.queue.Ledger s.accepted s.gone)
    (fun _ ttl => UpdateQueue.ledger_empty ttl) fun _ _ hm hs => ledger_apply hm hs

/-- The queue keeps its books, whatever happened in the session.

* The pending ids are the ids of the queued requests; no id is queued twice, and the requests carry
  different numbers, all of them below the next one.
* An offer is accepted exactly if its task is not queued, and changes nothing if it is refused; what
  is looked up and counted are the queued ids.
* The accepted requests are those that takers got, those that were taken at once, those that were
  dropped and those that are queued, each of them once.
* Pruning drops exactly the requests whose age has reached the time to live, and tells how many;
  their tasks can be offered again. -/
theorem queue_bookkeeping (h : s.Reachable) :
    ((∀ id, id ∈ s.queue.pending ↔ ∃ r ∈ s.queue.entries, r.chainTaskId = id) ∧
      s.queue.pending.Nodup ∧ (s.queue.entries.map (·.chainTaskId)).Nodup ∧
      (s.queue.entries.map (·.seq)).Nodup ∧ ∀ r ∈ s.queue.entries, r.seq < s.queue.nextSeq) ∧
    ((∀ now t, (s.queue.offer now t).1 = true ↔
        ∀ r ∈ s.queue.entries, r.chainTaskId ≠ t.chainTaskId) ∧
      (∀ now t, (s.queue.offer now t).1 = false → (s.queue.offer now t).2 = s.queue) ∧
      (∀ id, s.queue.contains id = true ↔ ∃ r ∈ s.queue.entries, r.chainTaskId = id) ∧
      s.queue.size = (s.queue.entries.map (·.chainTaskId)).toFinset.card) ∧
    (s.accepted.Nodup ∧ (s.accepted : Multiset Request) =
      s.counter.served.map (·.2) + s.taken + s.dropped + s.queue.entries) ∧
    ∀ now, (∀ r, r ∈ (s.queue.prune now).2.entries ↔
        r ∈ s.queue.entries ∧ now.nanosSince r.enqueuedAt < s.queue.ttl.toNanos) ∧
      (s.queue.prune now).1 = (s.queue.entries.filter fun r =>
        (s.queue.ttl.toNanos : Int) ≤ now.nanosSince r.enqueuedAt).length ∧
      ∀ r ∈ s.queue.entries, s.queue.ttl.toNanos ≤ now.nanosSince r.enqueuedAt →
        ∀ later t, t.chainTaskId = r.chainTaskId →
          ((s.queue.prune now).2.offer later t).1 = true := by
  have hledger := h.ledger
  have hcoherent := hledger.coherent
  have hkept : ∀ now r, r ∈ (s.queue.prune now).2.entries ↔
      r ∈ s.queue.entries ∧ now.nanosSince r.enqueuedAt < s.queue.ttl.toNanos := by
    intro now r
    rw [← UpdateQueue.isFresh_iff]
    exact List.mem_filter
  refine ⟨⟨fun id => ?_, ?_, hcoherent.distinct, ?_, fun r hr => ?_⟩,
    ⟨fun now t => hcoherent.offer_fst_iff now t, fun now t ht => ?_, fun id => ?_, ?_⟩,
    ⟨hledger.numbered.nodup, ?_⟩,
    fun now => ⟨hkept now, s.queue.prune_fst now, fun r hr hold later t ht => ?_⟩⟩
  · rw [hcoherent.pending.mem_iff]
    exact UpdateQueue.mem_ids_iff
  · exact hcoherent.pending.nodup_iff.2 hcoherent.distinct
  · exact List.pairwise_map.2 (hledger.numbered_entries.imp fun hab => Nat.ne_of_lt hab)
  · exact hledger.below r (hledger.inOrder.subset hr)
  · -- a refused offer is one for a queued id
    by_cases hqueued : t.chainTaskId ∈ s.queue.ids
    · rw [hcoherent.offer_of_mem now hqueued]
    · exact absurd ((hcoherent.offer_of_notMem now hqueued).1.symm.trans ht) (by simp)
  · rw [hcoherent.contains_iff]
    exact UpdateQueue.mem_ids_iff
  · exact ((List.toFinset_card_of_nodup hcoherent.distinct).trans (List.length_map _)).symm
  · have hperm := Multiset.coe_eq_coe.2 hledger.conserved
    rw [hperm, ← Multiset.coe_add, Multiset.add_comm]
    rfl
  · -- the only request with this id was dropped
    rw [(hcoherent.prune now).offer_fst_iff]
    intro x hx heq
    obtain ⟨hxmem, hxfresh⟩ := (hkept now x).1 hx
    have hsame : x = r := List.inj_on_of_nodup_map hcoherent.distinct hxmem hr (heq.trans ht)
    rw [hsame] at hxfresh
    exact absurd hold (not_le.2 hxfresh)

/-- A second offer for a task is refused. Later the first one is too old and the other request is
not, so one request is dropped, and its task can be offered again. -/
theorem queue_bookkeeping_expired :
    ∃ s : Session, s.Reachable ∧ s.queue.ids = ["0x1", "0x2"] ∧ s.accepted.length = 2 ∧
      (s.queue.prune s.now).2.ids = ["0x2"] ∧ (s.queue.prune s.now).1 = 1 ∧
      ((s.queue.prune s.now).2.offer s.now (.plain "0x1")).1 = true := by
  have hreach := (reachable_opened .epoch (.ofSeconds 1)).after
    [.offer (.plain "0x1"), .offer (.plain "0x1"), .advance 1000, .offer (.plain "0x2")]
  obtain ⟨-, -, -, hprune⟩ := queue_bookkeeping hreach
  obtain ⟨-, hcount, hagain⟩ := hprune _
  exact ⟨_, hreach, rfl, rfl, rfl, hcount,
    hagain _ List.mem_cons_self (by decide) _ (.plain "0x1") rfl⟩

end Session

end ComputePool
