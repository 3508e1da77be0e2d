import ComputePool.Proofs.Steps

/-!
# The registry under single steps

What each write does to the workers, told through the look-up `worker?` alone. A write that changes
a worker is a `Registry.modify`, so one lemma serves admissions and releases alike.
-/

namespace ComputePool

namespace Worker

/-- A task that is recorded is there with those that were there. -/
theorem mem_addOnce {id i : String} {ids : List String} :
    i ∈ addOnce id ids ↔ i ∈ ids ∨ i = id := by
  unfold addOnce
  split
  · next h =>
    refine ⟨.inl, fun hi => ?_⟩
    rcases hi with hi | rfl
    · exact hi
    · exact List.contains_iff_mem.1 h
  · rw [List.mem_append, List.mem_singleton]

/-- No task is recorded twice. -/
theorem nodup_addOnce {id : String} {ids : List String} (h : ids.Nodup) :
    (addOnce id ids).Nodup := by
  unfold addOnce
  split
  · exact h
  · next hc =>
    refine List.nodup_append.2 ⟨h, List.nodup_singleton id, fun a ha b hb hab => hc ?_⟩
    rw [List.contains_iff_mem, ← List.mem_singleton.1 hb, ← hab]
    exact ha

/-- A list grows by one id at most. -/
theorem length_addOnce_le (id : String) (ids : List String) :
    (addOnce id ids).length ≤ ids.length + 1 := by
  unfold addOnce
  split
  · exact Nat.le_succ _
  · simp

/-- A slot that is given back is that of the one task. -/
theorem mem_computing_releaseTask {id i : String} {w : Worker} :
    i ∈ (w.releaseTask id).computing ↔ i ∈ w.computing ∧ i ≠ id := by
  unfold releaseTask
  rw [List.mem_filter, bne_iff_ne]

/-- A slot that is free already is not freed once more. -/
theorem releaseTask_releaseTask (id : String) (w : Worker) :
    (w.releaseTask id).releaseTask id = w.releaseTask id := by
  unfold releaseTask
  rw [List.filter_filter]
  simp

end Worker

namespace Registry

theorem worker?_add (w : Worker) (r : Registry) (wallet : String) :
    (r.add w).worker? wallet = if w.wallet = wallet then some w else r.worker? wallet :=
  Table.find?_insert w.wallet wallet w r.workers

theorem worker?_remove (wallet other : String) (r : Registry) :
    (r.remove wallet).worker? other = if wallet = other then none else r.worker? other :=
  Table.find?_erase wallet other r.workers

/-- A worker that is gone is not removed once more. -/
theorem remove_remove (wallet : String) (r : Registry) :
    (r.remove wallet).remove wallet = r.remove wallet := by
  unfold remove Table.erase
  rw [List.filter_filter]
  simp

/-- A change of a worker is seen under its wallet only, and fails for an unknown one. -/
theorem modify_cases (wallet : String) (f : Worker → Worker) (r : Registry) :
    (r.worker? wallet = none ∧ r.modify wallet f = .error (.notFound "worker" wallet)) ∨
      ∃ r', r.modify wallet f = .ok r' ∧ r' = { r with workers := r'.workers } ∧
        ∀ other, r'.worker? other =
          if wallet = other then (r.worker? other).map f else r.worker? other := by
  unfold modify
  cases hw : r.worker? wallet with
  | none => exact .inl ⟨rfl, rfl⟩
  | some w =>
    refine .inr ⟨_, rfl, rfl, fun other => ?_⟩
    show (r.workers.insert wallet (f w)).find? other = _
    rw [Table.find?_insert]
    by_cases hwallet : wallet = other
    · rw [if_pos hwallet, if_pos hwallet, ← hwallet, hw]
      rfl
    · rw [if_neg hwallet, if_neg hwallet]
      rfl

/-- A known worker can be admitted. -/
theorem addTask_of_known {wallet : String} {r : Registry} {w : Worker}
    (h : r.worker? wallet = some w) (id : String) : ∃ r', r.addTask wallet id = .ok r' := by
  rcases r.modify_cases wallet (·.addTask id) with ⟨hnone, -⟩ | ⟨r', hok, -⟩
  · exact absurd (h.symm.trans hnone) (by simp)
  · exact ⟨r', hok⟩

/-- An admitted worker takes part in the task and computes it. -/
theorem worker?_addTask {wallet id : String} {r r' : Registry} (h : r.addTask wallet id = .ok r')
    (other : String) :
    r'.worker? other =
      if wallet = other then (r.worker? other).map (·.addTask id) else r.worker? other := by
  unfold addTask at h
  rcases r.modify_cases wallet (·.addTask id) with ⟨-, herr⟩ | ⟨k, hok, -, hk⟩
  · exact absurd (h.symm.trans herr) (by simp)
  · obtain rfl := Except.ok.inj (hok.symm.trans h)
    exact hk other

end Registry

namespace Pool

variable (p : Pool)

theorem writeRegistry_ok {f : Registry → Except StoreError Registry} {r : Registry}
    (h : f p.registry = .ok r) : p.writeRegistry f = (.ok (), { p with registry := r }) := by
  unfold writeRegistry
  rw [h]

theorem writeRegistry_error {f : Registry → Except StoreError Registry} {e : StoreError}
    (h : f p.registry = .error e) : p.writeRegistry f = (.error e, p) := by
  unfold writeRegistry
  rw [h]

/-- A change of a worker through the pool. -/
theorem worker?_writeRegistry_modify (wallet : String) (f : Worker → Worker) (other : String) :
    (p.writeRegistry (·.modify wallet f)).2.registry.worker? other =
      if wallet = other then (p.registry.worker? other).map f
      else p.registry.worker? other := by
  rcases p.registry.modify_cases wallet f with ⟨hnone, h⟩ | ⟨r', h, -, hr'⟩
  · -- the wallet is unknown, before and after
    rw [p.writeRegistry_error h]
    by_cases hwallet : wallet = other
    · rw [if_pos hwallet, ← hwallet, hnone]
      rfl
    · rw [if_neg hwallet]
  · rw [p.writeRegistry_ok h]
    exact hr' other

/-- A worker computes a task no longer, if it is known. -/
theorem worker?_endWork (wallet id other : String) :
    (p.endWork wallet id).2.registry.worker? other =
      if wallet = other then (p.registry.worker? other).map (·.releaseTask id)
      else p.registry.worker? other :=
  p.worker?_writeRegistry_modify wallet (·.releaseTask id) other

end Pool

/-- What a step does to the worker of a wallet. -/
inductive Step.OnWorker (s : Step) (p : Pool) (wallet : String) : Prop where
  | kept (same : (s.apply p).registry.worker? wallet = p.registry.worker? wallet)
  | registered (w : Worker) (step : s = .addWorker w) (own : w.wallet = wallet)
      (after : (s.apply p).registry.worker? wallet = some w)
  | removed (step : s = .removeWorker wallet)
      (after : (s.apply p).registry.worker? wallet = none)
  | admitted (id : String) (step : s = .addWork wallet id)
      (after : (s.apply p).registry.worker? wallet =
        (p.registry.worker? wallet).map (·.addTask id))
  | released (id : String) (step : s = .endWork wallet id)
      (after : (s.apply p).registry.worker? wallet =
        (p.registry.worker? wallet).map (·.releaseTask id))

/-- Every step does one of these to a worker. -/
theorem Step.onWorker (s : Step) (p : Pool) (wallet : String) : s.OnWorker p wallet := by
  by_cases hpart : s.part = .registry
  · cases s with
    | addWorker w =>
      have hafter := Registry.worker?_add w p.registry wallet
      by_cases hown : w.wallet = wallet
      · exact .registered w rfl hown (hafter.trans (if_pos hown))
      · exact .kept (hafter.trans (if_neg hown))
    | removeWorker other =>
      have hafter := Registry.worker?_remove other wallet p.registry
      by_cases hown : other = wallet
      · exact .removed (hown ▸ rfl) (hafter.trans (if_pos hown))
      · exact .kept (hafter.trans (if_neg hown))
    | addWork other id =>
      have hafter := p.worker?_writeRegistry_modify other (·.addTask id) wallet
      by_cases hown : other = wallet
      · exact .admitted id (hown ▸ rfl) (hafter.trans (if_pos hown))
      · exact .kept (hafter.trans (if_neg hown))
    | endWork other id =>
      have hafter := p.worker?_endWork other id wallet
      by_cases hown : other = wallet
      · exact .released id (hown ▸ rfl) (hafter.trans (if_pos hown))
      · exact .kept (hafter.trans (if_neg hown))
    | _ => exact absurd hpart (by simp [part])
  · exact .kept (by rw [Step.registry_apply p hpart])

/-- No step changes the policy. -/
theorem Step.policy_apply (s : Step) (p : Pool) :
    (s.apply p).registry = { p.registry with workers := (s.apply p).registry.workers } := by
  by_cases hpart : s.part = .registry
  · have hmodify : ∀ (wallet : String) (f : Worker → Worker),
        let r := (p.writeRegistry (·.modify wallet f)).2.registry
        r = { p.registry with workers := r.workers } := by
      intro wallet f r
      rcases p.registry.modify_cases wallet f with ⟨-, h⟩ | ⟨r', h, hpolicy, -⟩
      · unfold r
        rw [p.writeRegistry_error h]
      · unfold r
        rw [p.writeRegistry_ok h]
        exact hpolicy
    cases s with
    | addWorker w => rfl
    | removeWorker wallet => rfl
    | addWork wallet id => exact hmodify wallet (·.addTask id)
    | endWork wallet id => exact hmodify wallet (·.releaseTask id)
    | _ => exact absurd hpart (by simp [Step.part])
  · rw [Step.registry_apply p hpart]

/-- No run changes the policy. -/
theorem Pool.Leads.policy {S : Step → Prop} {p q : Pool} (h : p.Leads S q) :
    q.registry = { p.registry with workers := q.registry.workers } :=
  h.keeps (P := fun r => r.registry = { p.registry with workers := r.registry.workers })
    (fun s _ r hr => by rw [s.policy_apply r, hr]) rfl

/-- Whom the policy lets join does not depend on the steps. -/
theorem Pool.Leads.isAllowed {S : Step → Prop} {p q : Pool} (h : p.Leads S q) (wallet : String) :
    q.registry.isAllowed wallet = p.registry.isAllowed wallet := by
  rw [h.policy]
  rfl

end ComputePool
