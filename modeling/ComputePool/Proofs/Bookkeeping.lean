import ComputePool.Proofs.Versions

/-!
# The books of a replicate list

What a list says of its replicates beside their histories could be computed from the histories, and
its version from what was done to it. The fields are kept by hand, one write at a time, so that
they agree is an invariant: of each replicate on its own (`Replicate.Recorded`), which a fresh one
has and a report keeps whatever it carries, and of the version against the answers that the writes
gave (`Step.listVersion_apply`, and over all sequences of steps `Pool.listVersion_after`).
-/

namespace ComputePool

/-! ## One replicate -/

/-- What the replicate says of itself is what its history says, which begins with the entry of its
creation. -/
structure Replicate.Recorded (id : String) (r : Replicate) : Prop where
  task : r.chainTaskId = id
  created : ∃ date, r.history.head? = some (.byPool date .created none)
  current : r.history.getLast?.map (·.status) = some r.status
  hash : r.contributionHash = r.history.findSome? (·.resultHash?)

namespace Replicate

/-- A new replicate has one entry and no hash. -/
theorem recorded_fresh (now : Instant) (wallet id : String) :
    (fresh now wallet id).Recorded id := ⟨rfl, ⟨now, rfl⟩, rfl, rfl⟩

/-- A report is recorded, whatever its status and details. -/
theorem Recorded.updateStatus {id : String} {r : Replicate} (h : r.Recorded id)
    (u : StatusUpdate) : (r.updateStatus u).Recorded id := by
  have hhistory : (r.updateStatus u).history = r.history ++ [u] := rfl
  refine ⟨h.task, ?_, ?_, ?_⟩
  · obtain ⟨date, hdate⟩ := h.created
    refine ⟨date, ?_⟩
    rw [hhistory, List.head?_append, hdate, Option.some_or]
  · rw [hhistory, List.getLast?_append]
    rfl
  · show r.contributionHash.or u.resultHash? = _
    -- the first hash stays the first
    rw [hhistory, List.findSome?_append, ← h.hash, List.findSome?_singleton]

end Replicate

/-! ## All replicates -/

namespace ReplicateList

/-- What `f` keeps is kept of all the elements when the first match is changed by `f`. -/
theorem forall_modifyFirst {α : Type} {P : α → Prop} (p : α → Bool) {f : α → α}
    (hf : ∀ a, P a → P (f a)) {as : List α} (h : ∀ a ∈ as, P a) :
    ∀ a ∈ modifyFirst p f as, P a := by
  induction as with
  | nil => exact h
  | cons b rest ih =>
    obtain ⟨hb, hrest⟩ := List.forall_mem_cons.1 h
    unfold modifyFirst
    split
    · exact List.forall_mem_cons.2 ⟨hf b hb, hrest⟩
    · exact List.forall_mem_cons.2 ⟨hb, ih hrest⟩

end ReplicateList

/-- Every replicate of every list is recorded as it should be. -/
def Store.Recorded (s : Store) : Prop :=
  ∀ (id : String) (l : ReplicateList), s.list? id = some l → ∀ r ∈ l.replicates, r.Recorded id

namespace Store.Recorded

theorem empty : Store.empty.Recorded :=
  fun _ _ h => absurd h (by simp [Store.list?, Store.empty])

/-- Every step that writes a list keeps its replicates recorded. -/
theorem step {p : Pool} (h : p.store.Recorded) (s : Step) : (s.apply p).store.Recorded := by
  intro id l hl
  cases s.onList p id with
  | kept same => exact h id l (same.symm.trans hl)
  | created step unknown after =>
    obtain rfl := Option.some.inj (after.symm.trans hl)
    exact fun r hr => absurd hr List.not_mem_nil
  | added read wallet l₀ step of before absent after =>
    obtain rfl := Option.some.inj (after.symm.trans hl)
    intro r hr
    rcases List.mem_append.1 hr with hr | hr
    · exact h id l₀ before r hr
    · rw [List.mem_singleton.1 hr]
      exact Replicate.recorded_fresh p.now wallet id
  | reported wallet u l₀ step before after =>
    obtain rfl := Option.some.inj (after.symm.trans hl)
    unfold ReplicateList.report
    split
    · exact ReplicateList.forall_modifyFirst _ (fun r hr => hr.updateStatus u) (h id l₀ before)
    · exact h id l₀ before
  | removed wallet l₀ step before after =>
    obtain rfl := Option.some.inj (after.symm.trans hl)
    unfold ReplicateList.without
    split
    · exact fun r hr => h id l₀ before r (List.mem_filter.1 hr).1
    · exact h id l₀ before

/-- Replicates stay recorded, whatever steps are taken. -/
theorem leads {S : Step → Prop} {p q : Pool} (h : p.store.Recorded) (hq : p.Leads S q) :
    q.store.Recorded :=
  hq.keeps (P := fun q => q.store.Recorded) (fun s _ _ hq => hq.step s) h

end Store.Recorded

/-- The replicates are recorded as they should be, in any pool that is run. -/
theorem Pool.Reachable.recorded {p : Pool} (h : p.Reachable) : p.store.Recorded := by
  obtain ⟨start, hnew, hleads⟩ := h
  have hstart : start.store.Recorded := by
    rw [hnew.store]
    exact Store.Recorded.empty
  exact hstart.leads hleads

/-! ## Changes of a list -/

/-- The step is to change the list of a task, and the store answers that it did. -/
def Step.changes (id : String) (p : Pool) : Step → Bool
  | .addReplicate read wallet => read.chainTaskId == id && (p.addReplicate read wallet).1.isOk
  | .updateReplicate i wallet u => i == id && (p.updateReplicate i wallet u).1.isSome
  | .removeReplicate i wallet => i == id && (p.removeReplicate i wallet).1
  | _ => false

/-- How many of the steps changed the list of a task. -/
def Pool.changes (id : String) : List Step → Pool → Nat
  | [], _ => 0
  | s :: rest, p => (s.changes id p).toNat + changes id rest (s.apply p)

namespace Store

variable {s : Store} {id wallet : String}

/-- A report is accepted from those who take part. -/
theorem isSome_updateReplicate (u : StatusUpdate) :
    (s.updateReplicate id wallet u).1.isSome = (s.list? id).any (·.hasWorker wallet) := by
  unfold updateReplicate
  cases s.list? id with
  | none => rfl
  | some l =>
    rw [Option.any_some, ReplicateList.hasWorker]
    dsimp only
    cases l.find? wallet <;> rfl

/-- A removal says whether there was somebody to remove. -/
theorem removeReplicate_fst :
    (s.removeReplicate id wallet).1 = (s.list? id).any (·.hasWorker wallet) := by
  unfold removeReplicate
  cases s.list? id with
  | none => rfl
  | some l =>
    rw [Option.any_some]
    dsimp only
    cases l.hasWorker wallet <;> rfl

/-- The version of the list of a task; a list that is not there has none of its changes. -/
def listVersion (id : String) (s : Store) : Nat := ((s.list? id).map (·.version)).getD 0

end Store

/-- An addition succeeds if the list is the one that was read and the worker is not in it. -/
theorem Pool.isOk_addReplicate {p : Pool} {read : ReplicateList} {wallet : String} :
    (p.addReplicate read wallet).1.isOk = (p.store.list? read.chainTaskId).any fun l =>
      l.version == read.version && !l.hasWorker wallet := by
  have hadding := p.adding read wallet
  generalize p.addReplicate read wallet = result at hadding
  cases hadding with
  | added stored version absent =>
    rw [stored, Option.any_some, version, absent, beq_self_eq_true]
    rfl
  | unknown absent =>
    rw [absent]
    rfl
  | stale stored version =>
    rw [stored, Option.any_some, beq_false_of_ne version]
    rfl
  | taken stored version present =>
    rw [stored, Option.any_some, present, Bool.not_true, Bool.and_false]
    rfl

namespace Step

variable {p : Pool} {id : String}

/-- The answers are right: a step says that it changed a list if there is one in which it finds
something to change. -/
theorem changes_iff (s : Step) (p : Pool) (id : String) :
    s.changes id p = true ↔ ∃ l, p.store.list? id = some l ∧ s.Alters id l := by
  cases s with
  | addReplicate read wallet =>
    show (read.chainTaskId == id && (p.addReplicate read wallet).1.isOk) = true ↔ _
    rw [Bool.and_eq_true, beq_iff_eq, Pool.isOk_addReplicate, Option.any_eq_true]
    constructor
    · rintro ⟨rfl, l, hl, hfits⟩
      rw [Bool.and_eq_true, beq_iff_eq, Bool.not_eq_true'] at hfits
      exact ⟨l, hl, .add rfl hfits.1.symm hfits.2⟩
    · rintro ⟨l, hl, halters⟩
      cases halters with
      | add of version absent =>
        subst of
        refine ⟨rfl, l, hl, ?_⟩
        rw [version, absent, beq_self_eq_true]
        rfl
  | updateReplicate i wallet u =>
    show (i == id && (p.store.updateReplicate i wallet u).1.isSome) = true ↔ _
    rw [Bool.and_eq_true, beq_iff_eq, Store.isSome_updateReplicate, Option.any_eq_true]
    constructor
    · rintro ⟨rfl, l, hl, hpresent⟩
      exact ⟨l, hl, .report u hpresent⟩
    · rintro ⟨l, hl, halters⟩
      cases halters with
      | report _ present => exact ⟨rfl, l, hl, present⟩
  | removeReplicate i wallet =>
    show (i == id && (p.store.removeReplicate i wallet).1) = true ↔ _
    rw [Bool.and_eq_true, beq_iff_eq, Store.removeReplicate_fst, Option.any_eq_true]
    constructor
    · rintro ⟨rfl, l, hl, hpresent⟩
      exact ⟨l, hl, .remove hpresent⟩
    · rintro ⟨l, hl, halters⟩
      cases halters with
      | remove present => exact ⟨rfl, l, hl, present⟩
  | _ => exact iff_of_false Bool.false_ne_true fun ⟨_, _, halters⟩ => nomatch halters

/-- The version of a list counts the changes that were answered for. -/
theorem listVersion_apply (s : Step) (p : Pool) (id : String) :
    (s.apply p).store.listVersion id = p.store.listVersion id + (s.changes id p).toNat := by
  have hchanges := s.changes_iff p id
  unfold Store.listVersion
  cases hl : p.store.list? id with
  | none =>
    have hnothing : s.changes id p = false := by
      refine Bool.eq_false_iff.2 fun h => ?_
      obtain ⟨l, hl', -⟩ := hchanges.1 h
      exact absurd (hl.symm.trans hl') (by simp)
    rw [hnothing]
    cases s.onList p id with
    | kept same =>
      rw [same, hl]
      rfl
    | created step unknown after =>
      rw [after]
      rfl
    | added read wallet l step of before => exact absurd (hl.symm.trans before) (by simp)
    | reported wallet u l step before => exact absurd (hl.symm.trans before) (by simp)
    | removed wallet l step before => exact absurd (hl.symm.trans before) (by simp)
  | some l =>
    by_cases halters : s.Alters id l
    · obtain ⟨l', hl', hversion⟩ := halters.version_apply hl
      rw [hl', hchanges.2 ⟨l, hl, halters⟩]
      exact hversion
    · have hnothing : s.changes id p = false := by
        refine Bool.eq_false_iff.2 fun h => ?_
        obtain ⟨l', hl', halters'⟩ := hchanges.1 h
        obtain rfl := Option.some.inj (hl.symm.trans hl')
        exact halters halters'
      rw [(s.list?_apply_iff hl).2 halters, hnothing]
      rfl

end Step

namespace Pool

/-- Over a run the version grows by the number of changes. -/
theorem listVersion_after (id : String) (steps : List Step) (p : Pool) :
    (p.after steps).store.listVersion id = p.store.listVersion id + p.changes id steps := by
  induction steps generalizing p with
  | nil => rfl
  | cons s rest ih =>
    show ((s.apply p).after rest).store.listVersion id = _
    rw [ih, s.listVersion_apply, Nat.add_assoc]
    rfl

/-- The books of a list are kept, whatever the steps are: nobody takes part twice, every replicate
belongs to the task of the list and agrees with its own history, and the version counts the
additions, reports and removals that the store confirmed. -/
theorem lists_recorded {start : Pool} (hstart : start.IsNew) (steps : List Step) {id : String}
    {l : ReplicateList} (hl : (start.after steps).store.list? id = some l) :
    l.chainTaskId = id ∧ l.wallets.Nodup ∧ (∀ r ∈ l.replicates, r.Recorded id) ∧
      l.version = start.changes id steps := by
  have hreachable := hstart.reachable.after steps
  refine ⟨hreachable.wellKept.keyed.list hl, hreachable.distinct id l hl,
    hreachable.recorded id l hl, ?_⟩
  have hversion := listVersion_after id steps start
  unfold Store.listVersion at hversion
  rw [hl, hstart.store] at hversion
  exact hversion.trans (Nat.zero_add _)

/-- Of seven steps three change the list: one addition comes too late, and two steps are about
workers that are not there. The first of two hashes stays. -/
theorem lists_recorded_mixed : ∃ steps l r, blank.IsNew ∧ steps.length = 7 ∧
    (blank.after steps).store.list? "0x1" = some l ∧ l.replicates = [r] ∧ l.wallets.Nodup ∧
    r.Recorded "0x1" ∧ r.contributionHash = some "0x2a" ∧
    l.version = blank.changes "0x1" steps ∧ l.version = 3 := by
  have hlist : (blank.after [
      .createList "0x1",
      .addReplicate (.empty "0x1") "0xa",
      .addReplicate (.empty "0x1") "0xb",
      .updateReplicate "0x1" "0xa"
        (.byWorker .epoch .contributed (some { Details.none with resultHash := some "0x2a" })),
      .updateReplicate "0x1" "0xb" (.byPool .epoch .workerLost none),
      .updateReplicate "0x1" "0xa"
        (.byWorker .epoch .revealed (some { Details.none with resultHash := some "0x2b" })),
      .removeReplicate "0x1" "0xc"]).store.list? "0x1" = some _ := rfl
  obtain ⟨-, hdistinct, hrecorded, hversion⟩ := lists_recorded isNew_blank _ hlist
  exact ⟨_, _, _, isNew_blank, rfl, hlist, rfl, hdistinct,
    hrecorded _ (List.mem_singleton_self _), rfl, hversion, rfl⟩

end Pool

end ComputePool
