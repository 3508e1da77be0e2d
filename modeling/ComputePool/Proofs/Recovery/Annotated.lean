import ComputePool.Proofs.Records
import ComputePool.Recovery

/-!
# Marks at any place of a history

Two marks come and go in the history of a replicate without saying where it stands: that the worker
was lost, and that it was told what to do when it came back. A history is annotated by putting any
number of them at any places (`Interspersed`). What is read from a history looks past all of them,
not only past a last one: the last relevant status, what comes before a status, whether the
replicate can be resumed, and whether it ever reached a status that is not a mark. So do the counts
over a list of replicates, and its consensus with the chain. The current status is never asked for.
-/

namespace ComputePool

/-! ## Histories -/

/-- The second history is the first one with marks at some places. -/
inductive Interspersed : List StatusUpdate → List StatusUpdate → Prop where
  | nil : Interspersed [] []
  | keep (u : StatusUpdate) {h h' : List StatusUpdate} (rest : Interspersed h h') :
      Interspersed (u :: h) (u :: h')
  | mark (u : StatusUpdate) (hu : u.status.isRelevant = false) {h h' : List StatusUpdate}
      (rest : Interspersed h h') : Interspersed h (u :: h')

namespace Interspersed

variable {h h' : List StatusUpdate}

theorem refl (h : List StatusUpdate) : Interspersed h h := by
  induction h with
  | nil => exact nil
  | cons u _ ih => exact keep u ih

/-- What is appended to both histories is the same in both. -/
theorem append (hs : Interspersed h h') (k : List StatusUpdate) :
    Interspersed (h ++ k) (h' ++ k) := by
  induction hs with
  | nil => exact refl k
  | keep u _ ih => exact keep u ih
  | mark u hu _ ih => exact mark u hu ih

/-- The entries that are not marks are the same. -/
theorem filter_eq (hs : Interspersed h h') :
    h'.filter (·.status.isRelevant) = h.filter (·.status.isRelevant) := by
  induction hs with
  | nil => rfl
  | keep u _ ih => rw [List.filter_cons, List.filter_cons, ih]
  | mark u hu _ ih => rw [List.filter_cons_of_neg (by simp [hu]), ih]

theorem ne_nil (hs : Interspersed h h') (hne : h ≠ []) : h' ≠ [] := by
  cases hs with
  | nil => exact absurd rfl hne
  | keep u _ => exact List.cons_ne_nil u _
  | mark u _ _ => exact List.cons_ne_nil u _

end Interspersed

namespace Replicate

/-- Where a replicate stands is read from the entries that are not marks. -/
theorem lastRelevant?_eq (r : Replicate) :
    r.lastRelevant? = ((r.history.filter (·.status.isRelevant)).map (·.status)).getLast? := by
  unfold lastRelevant?
  rw [← List.head?_filter, List.map_reverse, List.filter_reverse, List.head?_reverse,
    List.filter_map]
  rfl

/-- Whether a status that is not a mark was reached is read from the entries that are not marks. -/
theorem reached_eq {s : ReplicateStatus} (hs : s.isRelevant = true) (r : Replicate) :
    r.reached s = (r.history.filter (·.status.isRelevant)).any (·.status == s) := by
  unfold reached
  rw [List.any_filter]
  congr 1
  funext u
  by_cases hu : u.status = s
  · rw [hu, hs, Bool.true_and]
  · rw [beq_eq_false_iff_ne.2 hu, Bool.and_false]

/-- The replicate with marks in its history; they may show in its current status. -/
structure Annotated (r r' : Replicate) : Prop where
  history : Interspersed r.history r'.history
  others : r' = { r with history := r'.history, status := r'.status }

namespace Annotated

variable {r r' : Replicate}

theorem refl (r : Replicate) : r.Annotated r := ⟨.refl r.history, rfl⟩

variable (h : r.Annotated r')

include h

theorem wallet : r'.wallet = r.wallet := by rw [h.others]

theorem chainTaskId : r'.chainTaskId = r.chainTaskId := by rw [h.others]

theorem contributionHash : r'.contributionHash = r.contributionHash := by rw [h.others]

/-- Where the replicate stands is the same with the marks and without. -/
theorem lastRelevant? : r'.lastRelevant? = r.lastRelevant? := by
  rw [lastRelevant?_eq, lastRelevant?_eq, h.history.filter_eq]

theorem reached {s : ReplicateStatus} (hs : s.isRelevant = true) : r'.reached s = r.reached s := by
  rw [reached_eq hs, reached_eq hs, h.history.filter_eq]

/-- A report comes after the marks as it comes after the history without them. -/
theorem updateStatus (u : StatusUpdate) : (r.updateStatus u).Annotated (r'.updateStatus u) := by
  refine ⟨h.history.append [u], ?_⟩
  unfold Replicate.updateStatus
  rw [h.others]

end Annotated

end Replicate

/-! ## Lists -/

namespace ReplicateList

/-- The list with marks in the histories of its replicates. -/
structure Annotated (l l' : ReplicateList) : Prop where
  replicates : List.Forall₂ Replicate.Annotated l.replicates l'.replicates
  others : l' = { l with replicates := l'.replicates }

namespace Annotated

variable {l l' : ReplicateList}

theorem refl (l : ReplicateList) : l.Annotated l :=
  ⟨List.forall₂_same.2 fun r _ => .refl r, rfl⟩

variable (h : l.Annotated l')

include h

theorem chainTaskId : l'.chainTaskId = l.chainTaskId := by rw [h.others]

/-- A count that looks past marks is the same. -/
theorem countP {q : Replicate → Bool} (hq : ∀ r r' : Replicate, r.Annotated r' → q r' = q r) :
    l'.replicates.countP q = l.replicates.countP q := by
  have hreplicates := h.replicates
  generalize l.replicates = rs at hreplicates ⊢
  generalize l'.replicates = rs' at hreplicates ⊢
  induction hreplicates with
  | nil => rfl
  | cons hr _ ih => rw [List.countP_cons, List.countP_cons, ih, hq _ _ hr]

theorem winnerCount (hash : String) : l'.winnerCount hash = l.winnerCount hash :=
  h.countP fun r r' hr => by rw [hr.lastRelevant?, hr.contributionHash]

theorem relevantCount (statuses : List ReplicateStatus) :
    l'.relevantCount statuses = l.relevantCount statuses :=
  h.countP fun r r' hr => by rw [hr.lastRelevant?]

/-- A list agrees with the chain whether it is marked or not. -/
theorem agreesWith (t : ChainTask) : l'.agreesWith t = l.agreesWith t := by
  unfold ReplicateList.agreesWith
  rw [h.winnerCount]

/-- The replicate of a wallet is the annotated one. -/
theorem find? (wallet : String) :
    Option.Rel Replicate.Annotated (l.find? wallet) (l'.find? wallet) := by
  unfold ReplicateList.find?
  have hreplicates := h.replicates
  generalize l.replicates = rs at hreplicates ⊢
  generalize l'.replicates = rs' at hreplicates ⊢
  induction hreplicates with
  | nil => exact .none
  | cons hr _ ih =>
    rw [List.find?_cons, List.find?_cons, hr.wallet]
    split
    · exact .some hr
    · exact ih

/-- Marks change nobody's part in the task. -/
theorem hasWorker (wallet : String) : l'.hasWorker wallet = l.hasWorker wallet := by
  have hfind := h.find? wallet
  unfold ReplicateList.hasWorker
  generalize l.find? wallet = r at hfind ⊢
  generalize l'.find? wallet = r' at hfind ⊢
  cases hfind with
  | none => rfl
  | some _ => rfl

/-- A report is appended in both lists. -/
theorem report (wallet : String) (u : StatusUpdate) :
    (l.report wallet u).Annotated (l'.report wallet u) := by
  have hmodify : List.Forall₂ Replicate.Annotated
      (modifyFirst (·.wallet == wallet) (·.updateStatus u) l.replicates)
      (modifyFirst (·.wallet == wallet) (·.updateStatus u) l'.replicates) := by
    have hreplicates := h.replicates
    generalize l.replicates = rs at hreplicates ⊢
    generalize l'.replicates = rs' at hreplicates ⊢
    induction hreplicates with
    | nil => exact .nil
    | cons hr hrest ih =>
      unfold modifyFirst
      rw [hr.wallet]
      split
      · exact .cons (hr.updateStatus u) hrest
      · exact .cons hr ih
  unfold ReplicateList.report
  rw [h.hasWorker]
  split
  · refine ⟨hmodify, ?_⟩
    unfold updateWorker
    rw [h.others]
  · exact h

end Annotated

end ReplicateList

/-! ## Pools -/

namespace Pool

/-- The pool with marks in the histories of the stored replicates. -/
structure Annotated (p p' : Pool) : Prop where
  lists : ∀ id, Option.Rel ReplicateList.Annotated (p.store.list? id) (p'.store.list? id)
  others : p' = { p with store := { p.store with lists := p'.store.lists } }

namespace Annotated

theorem refl (p : Pool) : p.Annotated p := by
  refine ⟨fun id => ?_, rfl⟩
  cases p.store.list? id with
  | none => exact .none
  | some l => exact .some (.refl l)

variable {p p' : Pool} (h : p.Annotated p')

include h

/-- Marks may be put into the list of one task. -/
theorem setList {id : String} {l l' : ReplicateList} (hl : p.store.list? id = some l)
    (ha : l.Annotated l') : p.Annotated { p' with store := p'.store.setList id l' } := by
  refine ⟨fun i => ?_, ?_⟩
  · show Option.Rel _ _ ((p'.store.setList id l').list? i)
    rw [Store.list?_setList]
    split
    · next hi =>
      rw [← hi, hl]
      exact .some ha
    · exact h.lists i
  · rw [h.others]
    rfl

/-- What is read from the stored replicate of a wallet looks past the marks. -/
theorem replicate? (id wallet : String) : Option.Rel Replicate.Annotated
    (p.store.replicate? id wallet) (p'.store.replicate? id wallet) := by
  have hlists := h.lists id
  unfold Store.replicate?
  generalize p.store.list? id = l at hlists ⊢
  generalize p'.store.list? id = l' at hlists ⊢
  cases hlists with
  | none => exact .none
  | some hl => exact hl.find? wallet

/-- A report is written in both pools alike. -/
theorem updateReplicate (id wallet : String) (u : StatusUpdate) :
    (p.updateReplicate id wallet u).2.Annotated (p'.updateReplicate id wallet u).2 := by
  have hrest : ∀ q : Pool, (q.updateReplicate id wallet u).2 = { q with store := { q.store with
      lists := (q.store.updateReplicate id wallet u).2.lists } } := by
    intro q
    have htasks := q.store.tasks_updateReplicate id wallet u
    unfold Pool.updateReplicate
    dsimp only
    rw [← htasks]
  refine ⟨fun i => ?_, ?_⟩
  · show Option.Rel _ ((p.store.updateReplicate id wallet u).2.list? i)
      ((p'.store.updateReplicate id wallet u).2.list? i)
    rw [Store.list?_updateReplicate, Store.list?_updateReplicate]
    have hlists := h.lists i
    generalize p.store.list? i = l at hlists ⊢
    generalize p'.store.list? i = l' at hlists ⊢
    split
    · cases hlists with
      | none => exact .none
      | some hl => exact .some (hl.report wallet u)
    · exact hlists
  · rw [hrest p, hrest p', h.others]

/-- A request is queued in both pools, or in none. -/
theorem publish (id : String) :
    (p'.perform (Publisher.publish id)).1 = (p.perform (Publisher.publish id)).1 ∧
      (p.perform (Publisher.publish id)).2.Annotated (p'.perform (Publisher.publish id)).2 := by
  have hlists := h.lists
  have hqueue : p'.queue.contains id = p.queue.contains id := by rw [h.others]; rfl
  have htask : p'.store.task? id = p.store.task? id := by rw [h.others]; rfl
  rw [perform_publish, perform_publish, perform_publishRequest, perform_publishRequest, hqueue,
    htask]
  split
  · exact ⟨rfl, h⟩
  · split
    · exact ⟨rfl, h⟩
    · cases p.store.task? id with
      | none => exact ⟨rfl, h⟩
      | some t =>
        -- an offer changes nothing but the dispatcher
        refine ⟨by rw [h.others]; rfl, hlists, ?_⟩
        rw [h.others]
        rfl

end Annotated

end Pool

end ComputePool
