import ComputePool.Proofs.Queue.Order

/-!
# What becomes of accepted requests

A ledger of a queue lists the requests that it accepted, in the order of their numbers, and those
that are gone. `UpdateQueue.Ledger` says that it balances: every accepted request is either queued
or gone, and once. Each operation keeps the balance, with its own entry in the ledger
(`Ledger.offer`, `Ledger.remove`, `Ledger.pop`, `Ledger.prune`).
-/

namespace ComputePool.UpdateQueue

open Request

variable {q : UpdateQueue} {accepted gone gone' : List Request} {r : Request}

/-- The request that the queue makes of a task. -/
def requestFor (now : Instant) (t : Task) (q : UpdateQueue) : Request :=
  ⟨t.chainTaskId, t.status, t.contributionDeadline, q.nextSeq, now⟩

/-- The requests of one queue that are not in another. -/
def departed (q q' : UpdateQueue) : List Request :=
  q.entries.filter fun r => decide (r ∉ q'.entries)

/-- Every accepted request is queued or gone, and once. -/
structure Ledger (q : UpdateQueue) (accepted gone : List Request) : Prop where
  coherent : q.Coherent
  inOrder : q.entries.Sublist accepted
  numbered : Numbered accepted
  below : ∀ r ∈ accepted, r.seq < q.nextSeq
  conserved : accepted.Perm (q.entries ++ gone)

/-! ## Single operations -/

theorem notMem_ids_iff {id : String} : id ∉ q.ids ↔ ∀ r ∈ q.entries, r.chainTaskId ≠ id := by
  rw [mem_ids_iff]
  exact ⟨fun hno r hr heq => hno ⟨r, hr, heq⟩, fun hall ⟨r, hr, heq⟩ => hall r hr heq⟩

/-- A request of a task that is not queued gets the next number and goes to the end. -/
theorem Coherent.offer_eq (h : q.Coherent) (now : Instant) {t : Task}
    (ht : t.chainTaskId ∉ q.ids) :
    q.offer now t = (true, { q with
      entries := q.entries ++ [q.requestFor now t]
      pending := t.chainTaskId :: q.pending
      nextSeq := q.nextSeq + 1 }) := by
  unfold UpdateQueue.offer
  rw [if_neg fun hc => ht ((h.contains_iff _).1 hc)]
  rfl

/-- An offer is accepted exactly if no request for the task is queued. -/
theorem Coherent.offer_fst_iff (h : q.Coherent) (now : Instant) (t : Task) :
    (q.offer now t).1 = true ↔ ∀ r ∈ q.entries, r.chainTaskId ≠ t.chainTaskId := by
  rw [← notMem_ids_iff]
  by_cases ht : t.chainTaskId ∈ q.ids
  · rw [h.offer_of_mem now ht]
    exact iff_of_false (by simp) fun hno => hno ht
  · rw [h.offer_eq now ht]
    exact iff_of_true rfl ht

/-- A request is kept while it is younger than the time to live. -/
theorem isFresh_iff {now : Instant} {ttl : Span} :
    isFresh now ttl r = true ↔ now.nanosSince r.enqueuedAt < ttl.toNanos := by
  unfold isFresh Instant.hasElapsed
  rw [Bool.not_eq_true', decide_eq_false_iff_not, Int.not_le]

/-- A request is dropped at exactly the time to live. -/
theorem not_isFresh (now : Instant) (ttl : Span) (r : Request) :
    (!isFresh now ttl r) = decide ((ttl.toNanos : Int) ≤ now.nanosSince r.enqueuedAt) :=
  Bool.not_not _

/-- Pruning takes away the requests that are too old. -/
theorem departed_prune (q : UpdateQueue) (now : Instant) :
    q.departed (q.prune now).2 =
      q.entries.filter fun r => (q.ttl.toNanos : Int) ≤ now.nanosSince r.enqueuedAt := by
  refine List.filter_congr fun r hr => ?_
  have hkept : r ∈ (q.prune now).2.entries ↔ isFresh now q.ttl r = true :=
    ⟨fun hmem => (List.mem_filter.1 hmem).2, fun hfresh => List.mem_filter.2 ⟨hr, hfresh⟩⟩
  rw [decide_eq_decide, hkept, isFresh_iff, Int.not_lt]

/-- Pruning tells how many requests it takes away. -/
theorem prune_fst (q : UpdateQueue) (now : Instant) :
    (q.prune now).1 = (q.entries.filter fun r =>
      (q.ttl.toNanos : Int) ≤ now.nanosSince r.enqueuedAt).length := by
  have hsplit := (List.filter_append_perm (isFresh now q.ttl) q.entries).length_eq
  simp only [not_isFresh, List.length_append] at hsplit
  show q.entries.length - (q.entries.filter (isFresh now q.ttl)).length = _
  omega

/-- An accepted offer brings one request. -/
theorem Coherent.departed_offer (h : q.Coherent) (now : Instant) {t : Task}
    (ht : t.chainTaskId ∉ q.ids) : (q.offer now t).2.departed q = [q.requestFor now t] := by
  have hnew : q.requestFor now t ∉ q.entries := fun hmem => ht (mem_ids_iff.2 ⟨_, hmem, rfl⟩)
  have hold : q.entries.filter (fun r => decide (r ∉ q.entries)) = [] :=
    List.filter_eq_nil_iff.2 fun r hr => by simpa using hr
  rw [h.offer_eq now ht]
  show (q.entries ++ [q.requestFor now t]).filter (fun r => decide (r ∉ q.entries)) = _
  rw [List.filter_append, hold, List.filter_cons_of_pos (by simpa using hnew)]
  rfl

theorem departed_self (q : UpdateQueue) : q.departed q = [] :=
  List.filter_eq_nil_iff.2 fun r hr => by simpa using hr

/-- Taking out a queued request takes away nothing else. -/
theorem departed_remove (h : q.entries.Nodup) (hr : r ∈ q.entries) :
    q.departed (q.remove r) = [r] := by
  rw [remove_of_mem hr]
  show q.entries.filter (fun s => decide (s ∉ q.entries.erase r)) = [r]
  have hsame : ∀ s ∈ q.entries, decide (s ∉ q.entries.erase r) = (s == r) := by
    intro s hs
    rw [Bool.eq_iff_iff, decide_eq_true_iff, h.mem_erase_iff, beq_iff_eq]
    exact ⟨fun hno => not_not.1 fun hne => hno ⟨hne, hs⟩, fun heq hmem => hmem.1 heq⟩
  rw [List.filter_congr hsame]
  exact List.filter_beq r ▸ (List.count_eq_one_of_mem h hr).symm ▸ rfl

/-! ## The balance -/

theorem ledger_empty (ttl : Span) : (empty ttl).Ledger [] [] :=
  ⟨coherent_empty ttl, .slnil, .nil, fun _ hr => absurd hr List.not_mem_nil, .refl _⟩

namespace Ledger

variable (h : q.Ledger accepted gone)

include h

/-- The order in which requests went does not matter. -/
theorem perm (hgone : gone.Perm gone') : q.Ledger accepted gone' :=
  { h with conserved := h.conserved.trans (hgone.append_left _) }

/-- The queued requests have numbers of their own. -/
theorem numbered_entries : Numbered q.entries := h.numbered.sublist h.inOrder

/-- No request is both queued and gone, nor twice in either place. -/
theorem nodup : (q.entries ++ gone).Nodup := h.conserved.nodup_iff.1 h.numbered.nodup

/-- A request that is accepted is entered in the ledger. -/
theorem offer (now : Instant) (t : Task) :
    (q.offer now t).2.Ledger
      (accepted ++ if (q.offer now t).1 then [q.requestFor now t] else []) gone := by
  by_cases ht : t.chainTaskId ∈ q.ids
  · rw [h.coherent.offer_of_mem now ht]
    show q.Ledger (accepted ++ []) gone
    rw [List.append_nil]
    exact h
  · have hcoherent := h.coherent.offer now t
    rw [h.coherent.offer_eq now ht] at hcoherent ⊢
    -- the new request has the next number, which no other has
    refine ⟨hcoherent, h.inOrder.append (.refl _), ?_, fun r hr => ?_, ?_⟩
    · refine List.pairwise_append.2 ⟨h.numbered, List.pairwise_singleton _ _, fun a ha b hb => ?_⟩
      rw [List.mem_singleton.1 hb]
      exact h.below a ha
    · rcases List.mem_append.1 hr with hr | hr
      · exact Nat.lt_succ_of_lt (h.below r hr)
      · rw [List.mem_singleton.1 hr]
        exact Nat.lt_succ_self _
    · show (accepted ++ [q.requestFor now t]).Perm ((q.entries ++ [q.requestFor now t]) ++ gone)
      rw [List.append_assoc]
      refine (List.perm_append_comm.trans (h.conserved.append_left _)).trans ?_
      exact List.perm_append_comm_assoc _ _ _

/-- A request that is taken out is entered among those that are gone. -/
theorem remove (hr : r ∈ q.entries) : (q.remove r).Ledger accepted (gone ++ [r]) where
  coherent := h.coherent.remove r
  inOrder := (q.entries_remove_sublist r).trans h.inOrder
  numbered := h.numbered
  below := by
    rw [remove_of_mem hr]
    exact h.below
  conserved := by
    refine h.conserved.trans (((perm_entries_remove hr).append_right gone).trans ?_)
    rw [← List.append_assoc]
    exact (List.perm_append_singleton r _).symm

/-- A request that is served is entered among those that are gone. -/
theorem pop : q.pop.2.Ledger accepted (gone ++ q.pop.1.toList) := by
  rw [pop_eq]
  cases hr : first? q.entries with
  | none =>
    show q.Ledger accepted (gone ++ [])
    rw [List.append_nil]
    exact h
  | some r => exact h.remove (first?_mem hr)

/-- Requests that expired are entered among those that are gone. -/
theorem prune (now : Instant) :
    (q.prune now).2.Ledger accepted (gone ++ q.departed (q.prune now).2) where
  coherent := h.coherent.prune now
  inOrder := List.filter_sublist.trans h.inOrder
  numbered := h.numbered
  below := h.below
  conserved := by
    have hsplit := List.filter_append_perm (isFresh now q.ttl) q.entries
    simp only [not_isFresh] at hsplit
    rw [departed_prune]
    refine h.conserved.trans ((hsplit.symm.append_right gone).trans ?_)
    rw [List.append_assoc]
    exact List.perm_append_comm.append_left _

end Ledger

end ComputePool.UpdateQueue
