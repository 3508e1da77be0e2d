import ComputePool.Proofs.Queue.Session

/-!
# The queue serves by priority

In every session the queued requests carry increasing numbers, so the order in which they are served
is a strict total order on them (`UpdateQueue.isStrictTotalOrder`), and `served_by_priority` says
which one it is, in terms of the requests as they were accepted: by status, then by deadline, then
as they came.
-/

namespace ComputePool

open Request

/-- Numbered requests are never equal in the order of serving. -/
theorem UpdateQueue.isStrictTotalOrder {q : UpdateQueue} (h : Numbered q.entries) :
    IsStrictTotalOrder {r // r ∈ q.entries} fun a b => compare a.1 b.1 = .lt where
  trichotomous a b hab hba := by
    by_contra hne
    have hne : b.1 ≠ a.1 := fun heq => hne (Subtype.ext heq.symm)
    rw [compare_eq_lt] at hab hba
    exact (h.precedes_or_precedes b.2 a.2 hne).elim hab hba
  irrefl a haa := not_precedes_self a.1 (compare_eq_lt.1 haa)
  trans a b c hab hbc := by
    rw [compare_eq_lt] at *
    exact precedes_trans hbc hab

namespace Request.Numbered

variable {l l' : List Request}

/-- The requests of a part, among all of them. -/
theorem filter_mem (h : Numbered l) (hl : l'.Sublist l) :
    l.filter (fun r => decide (r ∈ l')) = l' := by
  have hperm : (l.filter fun r => decide (r ∈ l')).Perm l' := by
    refine (List.perm_ext_iff_of_nodup (h.nodup.filter _) (h.sublist hl).nodup).2 fun r => ?_
    rw [List.mem_filter, decide_eq_true_iff]
    exact ⟨And.right, fun hr => ⟨hl.subset hr, hr⟩⟩
  exact hperm.eq_of_pairwise (fun _ _ _ _ hab hba => absurd hab (Nat.lt_asymm hba))
    (h.sublist List.filter_sublist) (h.sublist hl)

end Request.Numbered

namespace Session

variable {s : Session}

/-- Requests are served by priority, whatever happened in the session.

* The comparison of requests turns over with its arguments, and is a strict total order on those
  that are queued.
* What is taken is a queued request of the greatest status, among those of the earliest deadline,
  and among those the one that was accepted first; nothing is taken only if nothing is queued.
* Draining hands out every queued request once, in the order of the stable sort of the accepted
  requests that remain, by descending status and ascending deadline.
* After pruning, draining hands out the same, without the requests that were too old. -/
theorem served_by_priority (h : s.Reachable) :
    (IsStrictTotalOrder {r // r ∈ s.queue.entries} (fun a b => compare a.1 b.1 = .lt) ∧
      ∀ a b : Request, compare b a = (compare a b).swap) ∧
    ((s.queue.pop.1 = none ↔ s.queue.entries = []) ∧
      ∀ r, s.queue.pop.1 = some r → r ∈ s.queue.entries ∧
        s.queue.pop.2.entries = s.queue.entries.erase r ∧
        ∀ x ∈ s.queue.entries, x ≠ r → x.status < r.status ∨ x.status = r.status ∧
          (r.deadline < x.deadline ∨ r.deadline = x.deadline ∧ [r, x].Sublist s.accepted)) ∧
    (s.queue.drain.1.Perm s.queue.entries ∧ s.queue.drain.2.entries = [] ∧
      s.queue.drain.1 =
        (s.accepted.filter fun r => decide (r ∈ s.queue.entries)).mergeSort Request.mayPrecede) ∧
    ∀ now, (s.queue.prune now).2.drain.1 =
      s.queue.drain.1.filter fun r => now.nanosSince r.enqueuedAt < s.queue.ttl.toNanos := by
  have hledger := h.ledger
  have hnumbered := hledger.numbered_entries
  obtain ⟨hall, -, hdone⟩ := UpdateQueue.take_of_size_le hnumbered (Nat.le_refl s.queue.size)
  refine ⟨⟨UpdateQueue.isStrictTotalOrder hnumbered, fun a b => (compare_swap a b).symm⟩,
    ⟨⟨fun hnone => ?_, fun hnil => ?_⟩, fun r hr => ?_⟩, ⟨hall, hdone, ?_⟩, fun now => ?_⟩
  · by_contra hne
    obtain ⟨r, -, hpop, -⟩ := UpdateQueue.pop_of_ne_nil hnumbered hne
    rw [hpop] at hnone
    exact absurd hnone (by simp)
  · rw [UpdateQueue.pop_of_nil hnil]
  · have hne : s.queue.entries ≠ [] := by
      intro hnil
      rw [UpdateQueue.pop_of_nil hnil] at hr
      exact absurd hr (by simp)
    obtain ⟨r', hmem, hpop, hfirst⟩ := UpdateQueue.pop_of_ne_nil hnumbered hne
    rw [hpop] at hr ⊢
    obtain rfl := Option.some.inj hr
    refine ⟨hmem, congrArg (·.entries) (UpdateQueue.remove_of_mem hmem), fun x hx hxr => ?_⟩
    rcases precedes_iff.1 (hfirst x hx hxr) with hstatus | ⟨hstatus, hdeadline | ⟨heq, hseq⟩⟩
    · exact .inl hstatus
    · exact .inr ⟨TaskStatus.rank_inj hstatus.symm, .inl hdeadline⟩
    · -- the numbers tell which of the two was accepted first
      exact .inr ⟨TaskStatus.rank_inj hstatus.symm, .inr ⟨heq, hledger.numbered.pair_sublist
        (hledger.inOrder.subset hmem) (hledger.inOrder.subset hx) hseq⟩⟩
  · rw [hledger.numbered.filter_mem hledger.inOrder]
    exact UpdateQueue.drain_eq_mergeSort hnumbered
  · rw [UpdateQueue.drain_prune hnumbered]
    refine List.filter_congr fun r _ => ?_
    rw [Bool.eq_iff_iff, decide_eq_true_iff, UpdateQueue.isFresh_iff]

/-- Four tasks in different states: the second is furthest on, the third has the earliest deadline
of the others, and the first and the last differ in nothing but the time at which they came. -/
def ranked : Session :=
  let early : Instant := ⟨60, 0, by decide⟩
  (opened .epoch (.ofSeconds 60)).after [
    .offer { Task.plain "0x1" with status := .running },
    .offer { Task.plain "0x2" with status := .consensusReached },
    .offer { Task.plain "0x3" with status := .running, contributionDeadline := early },
    .offer { Task.plain "0x4" with status := .running }]

/-- They are served by status, then by deadline, then as they came. -/
theorem served_by_priority_ranked :
    ranked.Reachable ∧ ranked.queue.drain.1.map (·.chainTaskId) = ["0x2", "0x3", "0x1", "0x4"] ∧
      ranked.accepted.map (·.chainTaskId) = ["0x1", "0x2", "0x3", "0x4"] ∧
      ranked.queue.drain.1 =
        (ranked.accepted.filter fun r => decide (r ∈ ranked.queue.entries)).mergeSort
          Request.mayPrecede := by
  have hreach : ranked.Reachable := (reachable_opened .epoch (.ofSeconds 60)).after _
  obtain ⟨-, -, ⟨-, -, hsort⟩, -⟩ := served_by_priority hreach
  exact ⟨hreach, rfl, rfl, hsort⟩

end Session

end ComputePool
