import ComputePool.Queue.Basic
import Mathlib.Data.List.Nodup
import Mathlib.Data.List.Perm.Basic

/-!
# The two views of the queue agree

An offer looks through the pending ids and not through the entries, so a request is refused for
the right reason only as long as both tell the same. `Coherent` says so: every queued id is queued
once, and the pending ids are those of the entries. Every operation keeps it (`Coherent.offer`,
`Coherent.remove`, `Coherent.pop`, `Coherent.prune`).

`remove` takes out any request, whatever its place; `pop_eq` says that `pop` is `remove` of the
request served first.
-/

namespace ComputePool

/-- The request that is served first is one of the list. -/
theorem Request.first?_mem {l : List Request} {r : Request} (h : Request.first? l = some r) :
    r ∈ l := by
  induction l generalizing r with
  | nil => exact absurd h (by simp [Request.first?])
  | cons a rest ih =>
    unfold Request.first? at h
    split at h
    · obtain rfl := Option.some.inj h
      exact List.mem_cons_self
    · next s hs =>
      split at h
      · obtain rfl := Option.some.inj h
        exact List.mem_cons_of_mem a (ih hs)
      · obtain rfl := Option.some.inj h
        exact List.mem_cons_self

namespace UpdateQueue

/-- The ids of the queued requests, oldest first. -/
def ids (q : UpdateQueue) : List String := q.entries.map (·.chainTaskId)

/-- Takes out a request, if it is queued. -/
def remove (r : Request) (q : UpdateQueue) : UpdateQueue :=
  if r ∈ q.entries then
    { q with entries := q.entries.erase r, pending := q.pending.erase r.chainTaskId }
  else q

/-- Every queued id is queued once, and is pending; no other is. -/
structure Coherent (q : UpdateQueue) : Prop where
  distinct : q.ids.Nodup
  pending : q.pending.Perm q.ids

variable {q : UpdateQueue}

theorem coherent_empty (ttl : Span) : (empty ttl).Coherent :=
  ⟨List.nodup_nil, List.Perm.refl _⟩

/-- The set of pending tasks says what is queued. -/
theorem Coherent.contains_iff (h : q.Coherent) (id : String) :
    q.contains id = true ↔ id ∈ q.ids := by
  unfold contains
  rw [List.contains_iff_mem]
  exact h.pending.mem_iff

theorem mem_ids_iff {id : String} : id ∈ q.ids ↔ ∃ r ∈ q.entries, r.chainTaskId = id :=
  List.mem_map

theorem notMem_ids_of_empty (h : q.size = 0) (id : String) : id ∉ q.ids := by
  unfold ids
  rw [List.eq_nil_of_length_eq_zero h]
  exact List.not_mem_nil

/-! ## Offers -/

/-- An offer for an id that is not queued is accepted, as the last request. -/
theorem Coherent.offer_of_notMem (h : q.Coherent) (now : Instant) {t : Task}
    (ht : t.chainTaskId ∉ q.ids) :
    (q.offer now t).1 = true ∧ (q.offer now t).2.ids = q.ids ++ [t.chainTaskId] := by
  have hc : ¬ q.contains t.chainTaskId = true := fun hc => ht ((h.contains_iff _).1 hc)
  unfold offer
  rw [if_neg hc]
  refine ⟨rfl, ?_⟩
  show List.map _ (q.entries ++ [_]) = _
  rw [List.map_append]
  rfl

/-- An offer for a queued id changes nothing. -/
theorem Coherent.offer_of_mem (h : q.Coherent) (now : Instant) {t : Task}
    (ht : t.chainTaskId ∈ q.ids) : q.offer now t = (false, q) := by
  unfold offer
  rw [if_pos ((h.contains_iff _).2 ht)]

/-- An offer adds a request and its task, or neither. -/
theorem Coherent.offer (h : q.Coherent) (now : Instant) (t : Task) :
    (q.offer now t).2.Coherent := by
  by_cases ht : t.chainTaskId ∈ q.ids
  · rw [h.offer_of_mem now ht]
    exact h
  · have hids := (h.offer_of_notMem now ht).2
    have hpending : (q.offer now t).2.pending = t.chainTaskId :: q.pending := by
      unfold UpdateQueue.offer
      rw [if_neg fun hc => ht ((h.contains_iff _).1 hc)]
    refine ⟨?_, ?_⟩
    · rw [hids]
      exact List.nodup_append.2 ⟨h.distinct, List.nodup_singleton _, fun a ha b hb hab =>
        ht (List.mem_singleton.1 hb ▸ hab ▸ ha)⟩
    · rw [hids, hpending]
      exact (h.pending.cons _).trans (List.perm_append_singleton _ _).symm

/-! ## Taking requests out -/

theorem remove_of_mem {r : Request} (hr : r ∈ q.entries) :
    q.remove r =
      { q with entries := q.entries.erase r, pending := q.pending.erase r.chainTaskId } :=
  if_pos hr

/-- Taking out a queued request leaves the others. -/
theorem perm_entries_remove {r : Request} (hr : r ∈ q.entries) :
    q.entries.Perm (r :: (q.remove r).entries) := by
  rw [remove_of_mem hr]
  exact List.perm_cons_erase hr

theorem perm_ids_remove {r : Request} (hr : r ∈ q.entries) :
    q.ids.Perm (r.chainTaskId :: (q.remove r).ids) :=
  (perm_entries_remove hr).map _

/-- A request that was taken out leaves no other of its id. -/
theorem Coherent.notMem_remove (h : q.Coherent) {r : Request} (hr : r ∈ q.entries) :
    r.chainTaskId ∉ (q.remove r).ids :=
  (List.nodup_cons.1 ((perm_ids_remove hr).nodup_iff.1 h.distinct)).1

/-- A removal takes a request and its task, or neither. -/
theorem Coherent.remove (h : q.Coherent) (r : Request) : (q.remove r).Coherent := by
  by_cases hr : r ∈ q.entries
  · have hids := perm_ids_remove hr
    refine ⟨(List.nodup_cons.1 (hids.nodup_iff.1 h.distinct)).2, ?_⟩
    -- the id goes from both views, where it stood once
    have herase := (h.pending.trans hids).erase r.chainTaskId
    rw [List.erase_cons_head] at herase
    rw [remove_of_mem hr] at herase ⊢
    exact herase
  · unfold UpdateQueue.remove
    rw [if_neg hr]
    exact h

/-- The next request is taken out like any other. -/
theorem pop_eq (q : UpdateQueue) :
    q.pop =
      match Request.first? q.entries with
      | none => (none, q)
      | some r => (some r, q.remove r) := by
  unfold pop
  cases h : Request.first? q.entries with
  | none => rfl
  | some r =>
    show _ = (some r, q.remove r)
    rw [remove_of_mem (Request.first?_mem h)]

/-- What is served is no longer pending. -/
theorem Coherent.pop (h : q.Coherent) : q.pop.2.Coherent := by
  rw [pop_eq]
  cases Request.first? q.entries with
  | none => exact h
  | some r => exact h.remove r

/-! ## Pruning -/

/-- Of requests with different ids those that pass a test are those whose id is not that of a
request that fails it. -/
theorem map_filter_eq_filter_map {p : Request → Bool} {l : List Request}
    (h : (l.map (·.chainTaskId)).Nodup) :
    (l.filter p).map (·.chainTaskId) =
      (l.map (·.chainTaskId)).filter fun id =>
        !((l.filter fun r => !p r).map (·.chainTaskId)).contains id := by
  rw [List.filter_map]
  congr 1
  refine List.filter_congr fun r hr => ?_
  cases hp : p r with
  | true =>
    have hout : r.chainTaskId ∉ (l.filter fun r => !p r).map (·.chainTaskId) := by
      intro hmem
      -- a request that fails the test under the same id would be this one
      obtain ⟨s, hs, hsr⟩ := List.mem_map.1 hmem
      have hsl := List.mem_filter.1 hs
      have : s = r := List.inj_on_of_nodup_map h hsl.1 hr hsr
      rw [this, hp] at hsl
      exact absurd hsl.2 (by simp)
    simpa using hout
  | false =>
    have hin : r.chainTaskId ∈ (l.filter fun r => !p r).map (·.chainTaskId) :=
      List.mem_map_of_mem (List.mem_filter.2 ⟨hr, by simp [hp]⟩)
    simpa using hin

/-- What expired is no longer pending. -/
theorem Coherent.prune (h : q.Coherent) (now : Instant) : (q.prune now).2.Coherent := by
  have hids : (q.prune now).2.ids = _ := map_filter_eq_filter_map h.distinct
  refine ⟨?_, ?_⟩
  · rw [hids]
    exact h.distinct.filter _
  · rw [hids]
    exact h.pending.filter _

end UpdateQueue

end ComputePool
