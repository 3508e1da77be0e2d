import ComputePool.Proofs.OpenTasks
import ComputePool.Proofs.Participants

/-!
# Versions

Tasks and replicate lists carry a version, and a write that names the version it read is refused
when the record moved on. What this is worth depends on every write that does not look at the
version: a report or a removal must count too, and no write may ever bring an old version back.

`Revised` says this of two states of one record: the version does not fall, it rises with each
change, and by no more than one for each step. All steps keep to it (`Step.task?_revised`,
`Step.list?_revised`), so a version shows one content, however old the copy is that shows it.
Whether a writer still finds what it read is then a question about the steps in between:
`Pool.after_eq_iff` is the induction, and `Step.Rewrites`, `Step.Alters` name the steps that make
the difference.
-/

namespace ComputePool

/-! ## Records that carry a version -/

/-- The second state of a record comes after the first, by at most `n` changes. -/
structure Revised {α : Type} (version : α → Nat) (n : Nat) (a b : α) : Prop where
  le : version a ≤ version b
  bound : version b ≤ version a + n
  same : version b = version a → b = a

namespace Revised

variable {α : Type} {version : α → Nat} {m n : Nat} {a b c : α}

theorem refl (version : α → Nat) (n : Nat) (a : α) : Revised version n a a :=
  ⟨Nat.le_refl _, Nat.le_add_right _ _, fun _ => rfl⟩

/-- One change, which was counted. -/
theorem of_succ (h : version b = version a + 1) : Revised version 1 a b :=
  ⟨by omega, by omega, fun hsame => by omega⟩

theorem trans (h : Revised version m a b) (h' : Revised version n b c) :
    Revised version (m + n) a c := by
  refine ⟨Nat.le_trans h.le h'.le, ?_, fun hsame => ?_⟩
  · have hfirst := h.bound
    have hsecond := h'.bound
    omega
  · -- the version did not rise in between either
    have hmiddle : version b = version a := Nat.le_antisymm (hsame ▸ h'.le) h.le
    rw [h'.same (hsame.trans hmiddle.symm), h.same hmiddle]

/-- What was changed never becomes again what it was. -/
theorem ne_of_lt (h : version a < version b) (h' : Revised version n b c) : c ≠ a := by
  rintro rfl
  exact Nat.lt_irrefl _ (Nat.lt_of_lt_of_le h h'.le)

/-- The version tells the states apart even if only its lower 64 bits are kept. -/
theorem eq_of_mod (h : Revised version n a b) (hn : n < UInt64.size)
    (hmod : version b % UInt64.size = version a % UInt64.size) : b = a := by
  have hle := h.le
  have hbound := h.bound
  unfold UInt64.size at hn hmod
  exact h.same (by omega)

end Revised

/-! ## Single steps -/

namespace Step

variable {p : Pool} {id : String}

/-- The step saves a task over this version of it. -/
def Rewrites (id : String) (version : Nat) (s : Step) : Prop :=
  ∃ t, s = .saveTask t ∧ t.chainTaskId = id ∧ t.version = version

/-- The step changes the list of a task, if the list is as given: it adds a worker that is not in
it, for somebody who read this version, or reports on a worker that is in it, or removes one. -/
inductive Alters (id : String) (l : ReplicateList) : Step → Prop where
  | add {read : ReplicateList} {wallet : String} (of : read.chainTaskId = id)
      (version : read.version = l.version) (absent : l.hasWorker wallet = false) :
      Alters id l (.addReplicate read wallet)
  | report {wallet : String} (u : StatusUpdate) (present : l.hasWorker wallet = true) :
      Alters id l (.updateReplicate id wallet u)
  | remove {wallet : String} (present : l.hasWorker wallet = true) :
      Alters id l (.removeReplicate id wallet)

/-- A stored task is as it was, or was saved over. -/
theorem task?_revised (s : Step) {t : Task} (ht : p.store.task? id = some t) :
    ∃ t', (s.apply p).store.task? id = some t' ∧ Revised Task.version 1 t t' := by
  cases s.onTask p id with
  | kept same => exact ⟨t, same.trans ht, .refl _ 1 t⟩
  | stored t' step of unknown after => exact absurd (unknown.symm.trans ht) (by simp)
  | saved t' old step of before version after =>
    obtain rfl := Option.some.inj (before.symm.trans ht)
    refine ⟨t'.saved, after, .of_succ ?_⟩
    show t'.version + 1 = _
    rw [version]

/-- A stored list is as it was, or was changed and the change counted. -/
theorem list?_revised (s : Step) {l : ReplicateList} (hl : p.store.list? id = some l) :
    ∃ l', (s.apply p).store.list? id = some l' ∧ Revised ReplicateList.version 1 l l' := by
  cases s.onList p id with
  | kept same => exact ⟨l, same.trans hl, .refl _ 1 l⟩
  | created step unknown after => exact absurd (unknown.symm.trans hl) (by simp)
  | added read wallet l' step of before absent after =>
    obtain rfl := Option.some.inj (before.symm.trans hl)
    exact ⟨_, after, .of_succ rfl⟩
  | reported wallet u l' step before after =>
    obtain rfl := Option.some.inj (before.symm.trans hl)
    refine ⟨_, after, ?_⟩
    cases hw : l'.hasWorker wallet with
    | true => exact .of_succ (ReplicateList.version_report hw u)
    | false =>
      rw [ReplicateList.report_of_absent hw]
      exact .refl _ 1 l'
  | removed wallet l' step before after =>
    obtain rfl := Option.some.inj (before.symm.trans hl)
    refine ⟨_, after, ?_⟩
    cases hw : l'.hasWorker wallet with
    | true => exact .of_succ (ReplicateList.version_without hw)
    | false =>
      rw [ReplicateList.without_of_absent hw]
      exact .refl _ 1 l'

end Step

/-! ## Guarded writes -/

namespace Pool

/-- How the save of a task ends: the task is stored with the next version and nothing else
changes, or nothing changes at all. -/
inductive Saving (p : Pool) (t : Task) : Except StoreError Task × Pool → Prop where
  | saved {old : Task} (stored : p.store.task? t.chainTaskId = some old)
      (version : old.version = t.version) :
      Saving p t (.ok t.saved,
        { p with store := { p.store with tasks := p.store.tasks.insert t.chainTaskId t.saved } })
  | unknown (absent : p.store.task? t.chainTaskId = none) :
      Saving p t (.error (.notFound "task" t.chainTaskId), p)
  | stale {old : Task} (stored : p.store.task? t.chainTaskId = some old)
      (version : old.version ≠ t.version) :
      Saving p t (.error (.conflict "task" t.chainTaskId t.version old.version), p)

/-- How the addition of a worker to a list that was read ends: a fresh replicate comes in at the
end of the list as it is stored, or nothing changes. -/
inductive Adding (p : Pool) (read : ReplicateList) (wallet : String) :
    Except StoreError ReplicateList × Pool → Prop where
  | added {l : ReplicateList} (stored : p.store.list? read.chainTaskId = some l)
      (version : l.version = read.version) (absent : l.hasWorker wallet = false) :
      Adding p read wallet
        (.ok (l.plus p.now wallet read.chainTaskId),
          { p with
            store := p.store.setList read.chainTaskId
              (l.plus p.now wallet read.chainTaskId) })
  | unknown (absent : p.store.list? read.chainTaskId = none) :
      Adding p read wallet (.error (.notFound "replicates_list" read.chainTaskId), p)
  | stale {l : ReplicateList} (stored : p.store.list? read.chainTaskId = some l)
      (version : l.version ≠ read.version) :
      Adding p read wallet
        (.error (.conflict "replicates_list" read.chainTaskId read.version l.version), p)
  | taken {l : ReplicateList} (stored : p.store.list? read.chainTaskId = some l)
      (version : l.version = read.version) (present : l.hasWorker wallet = true) :
      Adding p read wallet
        (.error (.duplicate "replicate" (read.chainTaskId ++ "/" ++ wallet)), p)

variable {p : Pool}

/-- Every save comes to one of these ends. -/
theorem saving (p : Pool) (t : Task) : p.Saving t (p.saveTask t) := by
  cases hstored : p.store.task? t.chainTaskId with
  | none =>
    have hwrite : p.store.saveTask t = .error (.notFound "task" t.chainTaskId) := by
      unfold Store.saveTask
      rw [hstored]
    rw [show p.saveTask t = _ from p.writeStore_error hwrite]
    exact .unknown hstored
  | some old =>
    by_cases hversion : old.version = t.version
    · rw [show p.saveTask t = _ from
        p.writeStore_ok (Store.saveTask_of_version hstored hversion)]
      exact .saved hstored hversion
    · have hwrite : p.store.saveTask t =
          .error (.conflict "task" t.chainTaskId t.version old.version) := by
        unfold Store.saveTask
        rw [hstored]
        exact if_neg hversion
      rw [show p.saveTask t = _ from p.writeStore_error hwrite]
      exact .stale hstored hversion

/-- Every addition comes to one of these ends. -/
theorem adding (p : Pool) (read : ReplicateList) (wallet : String) :
    p.Adding read wallet (p.addReplicate read wallet) := by
  unfold addReplicate writeStore Store.addReplicate
  dsimp only
  cases hstored : p.store.list? read.chainTaskId with
  | none => exact .unknown hstored
  | some l =>
    dsimp only
    by_cases hversion : l.version = read.version
    · rw [if_pos hversion]
      cases hw : l.hasWorker wallet with
      | true => exact .taken hstored hversion hw
      | false => exact .added hstored hversion hw
    · rw [if_neg hversion]
      exact .stale hstored hversion

/-- A save succeeds against the stored version and no other. -/
theorem saveTask_eq_ok_iff {t saved : Task} : (p.saveTask t).1 = .ok saved ↔
    saved = t.saved ∧ ∃ old, p.store.task? t.chainTaskId = some old ∧
      old.version = t.version := by
  have hsaving := p.saving t
  generalize p.saveTask t = result at hsaving
  cases hsaving with
  | saved stored version => simp [stored, version, eq_comm]
  | unknown absent => simp [absent]
  | stale stored version => simp [stored, version]

/-- An addition succeeds against the stored version and no other, for a wallet that is not in the
list. -/
theorem addReplicate_eq_ok_iff {read changed : ReplicateList} {wallet : String} :
    (p.addReplicate read wallet).1 = .ok changed ↔
      ∃ l, p.store.list? read.chainTaskId = some l ∧ l.version = read.version ∧
        l.hasWorker wallet = false ∧ changed = l.plus p.now wallet read.chainTaskId := by
  have hadding := p.adding read wallet
  generalize p.addReplicate read wallet = result at hadding
  cases hadding with
  | @added l stored version absent =>
    refine ⟨fun hok => ⟨l, stored, version, absent, (Except.ok.inj hok).symm⟩, ?_⟩
    rintro ⟨l', stored', -, -, rfl⟩
    obtain rfl := Option.some.inj (stored.symm.trans stored')
    rfl
  | unknown absent => simp [absent]
  | stale stored version => simp [stored, version]
  | taken stored version present => simp [stored, present]

end Pool

/-! ## Steps that change a record -/

namespace Step

variable {p : Pool} {id : String}

/-- A stored task stays as it is, unless its version is saved over. -/
theorem task?_apply_iff (s : Step) {t : Task} (ht : p.store.task? id = some t) :
    (s.apply p).store.task? id = some t ↔ ¬ s.Rewrites id t.version := by
  refine ⟨?_, fun hnone => ?_⟩
  · rintro hsame ⟨c, rfl, rfl, hversion⟩
    have hsaving := p.saving c
    have hafter : (p.saveTask c).2.store.task? c.chainTaskId = some t := hsame
    generalize p.saveTask c = result at hsaving hafter
    cases hsaving with
    | saved stored version =>
      -- the saved task has another version
      rw [Store.task?_insert, if_pos rfl] at hafter
      have hnext : c.saved.version = t.version := congrArg _ (Option.some.inj hafter)
      exact absurd (hnext.trans hversion.symm) (Nat.succ_ne_self c.version)
    | unknown absent => exact absurd (absent.symm.trans ht) (by simp)
    | stale stored version =>
      obtain rfl := Option.some.inj (stored.symm.trans ht)
      exact version hversion.symm
  · cases s.onTask p id with
    | kept same => exact same.trans ht
    | stored t' step of unknown after => exact absurd (unknown.symm.trans ht) (by simp)
    | saved t' old step of before version after =>
      obtain rfl := Option.some.inj (before.symm.trans ht)
      exact absurd ⟨t', step, of, version.symm⟩ hnone

/-- A list that a step finds something to change in has the next version afterwards. -/
theorem Alters.version_apply {s : Step} {l : ReplicateList} (h : s.Alters id l)
    (hl : p.store.list? id = some l) :
    ∃ l', (s.apply p).store.list? id = some l' ∧ l'.version = l.version + 1 := by
  cases h with
  | @add read wallet of version absent =>
    subst of
    have hadding := p.adding read wallet
    show ∃ l', (p.addReplicate read wallet).2.store.list? read.chainTaskId = some l' ∧ _
    generalize p.addReplicate read wallet = result at hadding
    cases hadding with
    | added stored version' absent' =>
      obtain rfl := Option.some.inj (stored.symm.trans hl)
      exact ⟨_, (Store.list?_setList ..).trans (if_pos rfl), rfl⟩
    | unknown absent' => exact absurd (absent'.symm.trans hl) (by simp)
    | stale stored version' =>
      obtain rfl := Option.some.inj (stored.symm.trans hl)
      exact absurd version.symm version'
    | taken stored version' present =>
      obtain rfl := Option.some.inj (stored.symm.trans hl)
      exact absurd (present.symm.trans absent) (by simp)
  | @report wallet u present =>
    have hreport := (p.store.list?_updateReplicate id wallet u id).trans (if_pos rfl)
    rw [hl] at hreport
    exact ⟨_, hreport, ReplicateList.version_report present u⟩
  | @remove wallet present =>
    have hremove := (p.store.list?_removeReplicate id wallet id).trans (if_pos rfl)
    rw [hl] at hremove
    exact ⟨_, hremove, ReplicateList.version_without present⟩

/-- A stored list stays as it is, unless a step finds something to change in it. -/
theorem list?_apply_iff (s : Step) {l : ReplicateList} (hl : p.store.list? id = some l) :
    (s.apply p).store.list? id = some l ↔ ¬ s.Alters id l := by
  refine ⟨fun hsame halters => ?_, fun hnone => ?_⟩
  · obtain ⟨l', hl', hversion⟩ := halters.version_apply hl
    obtain rfl := Option.some.inj (hl'.symm.trans hsame)
    exact absurd hversion.symm (Nat.succ_ne_self _)
  · cases s.onList p id with
    | kept same => exact same.trans hl
    | created step unknown after => exact absurd (unknown.symm.trans hl) (by simp)
    | added read wallet l' step of before absent after version =>
      obtain rfl := Option.some.inj (before.symm.trans hl)
      subst step
      exact absurd (.add of version.symm absent) hnone
    | reported wallet u l' step before after =>
      obtain rfl := Option.some.inj (before.symm.trans hl)
      subst step
      cases hw : l'.hasWorker wallet with
      | true => exact absurd (.report u hw) hnone
      | false => exact after.trans (congrArg some (ReplicateList.report_of_absent hw u))
    | removed wallet l' step before after =>
      obtain rfl := Option.some.inj (before.symm.trans hl)
      subst step
      cases hw : l'.hasWorker wallet with
      | true => exact absurd (.remove hw) hnone
      | false => exact after.trans (congrArg some (ReplicateList.without_of_absent hw))

end Step

/-! ## From one read to the next -/

namespace Pool

section Records

variable {α : Type} {version : α → Nat} (record? : Pool → Option α)
  (hstep : ∀ (s : Step) (p : Pool) (a : α), record? p = some a →
    ∃ b, record? (s.apply p) = some b ∧ Revised version 1 a b)

include hstep

/-- A record that each step keeps or revises is revised at most once for each step. -/
theorem after_revised (steps : List Step) {p : Pool} {a : α} (h : record? p = some a) :
    ∃ b, record? (p.after steps) = some b ∧ Revised version steps.length a b := by
  induction steps generalizing p a with
  | nil => exact ⟨a, h, .refl version _ a⟩
  | cons s rest ih =>
    obtain ⟨b, hb, hfirst⟩ := hstep s p a h
    obtain ⟨c, hc, hrest⟩ := ih hb
    refine ⟨c, hc, ?_⟩
    rw [List.length_cons, Nat.add_comm]
    exact hfirst.trans hrest

/-- A record is found again exactly if none of the steps changed it: what was changed does not
come back. -/
theorem after_eq_iff {changes : Step → Prop} {a : α}
    (hchange : ∀ (s : Step) (p : Pool), record? p = some a →
      (record? (s.apply p) = some a ↔ ¬ changes s))
    (steps : List Step) {p : Pool} (h : record? p = some a) :
    record? (p.after steps) = some a ↔ ∀ s ∈ steps, ¬ changes s := by
  induction steps generalizing p with
  | nil => exact iff_of_true h fun s hs => absurd hs List.not_mem_nil
  | cons s rest ih =>
    rw [List.forall_mem_cons, ← hchange s p h]
    obtain ⟨b, hb, hfirst⟩ := hstep s p a h
    by_cases hsame : record? (s.apply p) = some a
    · exact (ih hsame).trans (and_iff_right hsame).symm
    · -- the step changed the record, which is new from now on
      refine iff_of_false (fun hagain => ?_) fun hboth => hsame hboth.1
      obtain ⟨c, hc, hrest⟩ := after_revised record? hstep rest hb
      have hne : b ≠ a := fun heq => hsame (heq ▸ hb)
      have hlt : version a < version b :=
        Nat.lt_of_le_of_ne hfirst.le fun heq => hne (hfirst.same heq.symm)
      exact hrest.ne_of_lt hlt (Option.some.inj (hc.symm.trans hagain))

end Records

variable {p : Pool} {id : String}

theorem task?_after (steps : List Step) {t : Task} (ht : p.store.task? id = some t) :
    ∃ t', (p.after steps).store.task? id = some t' ∧ Revised Task.version steps.length t t' :=
  after_revised (fun q => q.store.task? id) (fun s _ _ h => s.task?_revised h) steps ht

theorem list?_after (steps : List Step) {l : ReplicateList} (hl : p.store.list? id = some l) :
    ∃ l', (p.after steps).store.list? id = some l' ∧
      Revised ReplicateList.version steps.length l l' :=
  after_revised (fun q => q.store.list? id) (fun s _ _ h => s.list?_revised h) steps hl

/-- A version of a task is found again exactly if nobody saved over it. -/
theorem task?_after_iff (steps : List Step) {t : Task} (ht : p.store.task? id = some t) :
    (∃ t', (p.after steps).store.task? id = some t' ∧ t'.version = t.version) ↔
      ∀ s ∈ steps, ¬ s.Rewrites id t.version := by
  rw [← after_eq_iff (fun q => q.store.task? id)
    (fun s _ _ h => s.task?_revised h) (fun s _ h => s.task?_apply_iff h) steps ht]
  obtain ⟨t', ht', hrevised⟩ := task?_after steps ht
  refine ⟨?_, fun hsame => ⟨t, hsame, rfl⟩⟩
  rintro ⟨t'', ht'', hversion⟩
  obtain rfl := Option.some.inj (ht'.symm.trans ht'')
  rw [← hrevised.same hversion]
  exact ht'

/-- A version of a list is found again exactly if no step changed that list. -/
theorem list?_after_iff (steps : List Step) {l : ReplicateList} (hl : p.store.list? id = some l) :
    (∃ l', (p.after steps).store.list? id = some l' ∧ l'.version = l.version) ↔
      ∀ s ∈ steps, ¬ s.Alters id l := by
  rw [← after_eq_iff (fun q => q.store.list? id)
    (fun s _ _ h => s.list?_revised h) (fun s _ h => s.list?_apply_iff h) steps hl]
  obtain ⟨l', hl', hrevised⟩ := list?_after steps hl
  refine ⟨?_, fun hsame => ⟨l, hsame, rfl⟩⟩
  rintro ⟨l'', hl'', hversion⟩
  obtain rfl := Option.some.inj (hl'.symm.trans hl'')
  rw [← hrevised.same hversion]
  exact hl'

end Pool

/-! ## Reads -/

/-- One of the reads of the store shows the task. -/
inductive Store.Shows (s : Store) (t : Task) : Prop where
  | one {id : String} (found : s.task? id = some t)
  | several {ids : List String} (found : t ∈ s.tasksOf ids)
  | inStatus {statuses : List TaskStatus} (found : t ∈ s.tasksIn statuses)
  | best {excludeTee : Bool} {excluded : List String}
      (found : s.bestOpenTask? excludeTee excluded = some t)

/-- Whatever a read shows is the task as it is stored. -/
theorem Store.Keyed.task?_of_shows {s : Store} (hs : s.Keyed) {t : Task} (h : s.Shows t) :
    s.task? t.chainTaskId = some t := by
  cases h with
  | one found =>
    rw [hs.task found]
    exact found
  | several found =>
    obtain ⟨id, -, hid⟩ := List.mem_filterMap.1 found
    rw [hs.task hid]
    exact hid
  | inStatus found => exact hs.task?_of_mem (List.mem_filter.1 found).1
  | best found => exact (hs.bestOpenTask? found).1

/-! ## No update is lost -/

namespace Pool

/-- Optimistic writes lose no update, whatever the steps are between a read and the write that
follows it. Records lie under their ids. A guarded write succeeds against the stored version only,
does what its caller asked for, and otherwise changes nothing. Two reads that show one version of a
record show the same record, also where a version is kept in 64 bits. So of those who read one
version the first to write succeeds, and the others are refused: a save or an addition succeeds
after other steps exactly if none of them was a save over that version, or a change of that
list. -/
theorem no_update_lost {p : Pool} (hp : p.Reachable) :
    (∀ id t, p.store.task? id = some t → t.chainTaskId = id) ∧
    (∀ id l, p.store.list? id = some l → l.chainTaskId = id) ∧
    (∀ t, p.Saving t (p.saveTask t)) ∧
    (∀ read wallet, p.Adding read wallet (p.addReplicate read wallet)) ∧
    (∀ steps t, p.store.Shows t →
      (∀ t', (p.after steps).store.Shows t' → t'.chainTaskId = t.chainTaskId →
        Revised Task.version steps.length t t' ∧
        (steps.length < UInt64.size →
          t'.version % UInt64.size = t.version % UInt64.size → t' = t)) ∧
      ∀ edited saved, edited.chainTaskId = t.chainTaskId → edited.version = t.version →
        (((p.after steps).saveTask edited).1 = .ok saved ↔
          saved = edited.saved ∧ ∀ s ∈ steps, ¬ s.Rewrites t.chainTaskId t.version)) ∧
    ∀ steps id l, p.store.list? id = some l →
      (∀ l', (p.after steps).store.list? id = some l' →
        Revised ReplicateList.version steps.length l l' ∧
        (steps.length < UInt64.size →
          l'.version % UInt64.size = l.version % UInt64.size → l' = l)) ∧
      ∀ read wallet changed, read.chainTaskId = id → read.version = l.version →
        (((p.after steps).addReplicate read wallet).1 = .ok changed ↔
          changed = l.plus (p.after steps).now wallet id ∧ l.hasWorker wallet = false ∧
            ∀ s ∈ steps, ¬ s.Alters id l) := by
  have hkeyed := hp.wellKept.keyed
  refine ⟨fun id t => hkeyed.task, fun id l => hkeyed.list, p.saving, p.adding, ?_, ?_⟩
  · intro steps t hshows
    have ht := hkeyed.task?_of_shows hshows
    refine ⟨fun t' hshows' hid => ?_, fun edited saved hid hversion => ?_⟩
    · have ht' := (hp.after steps).wellKept.keyed.task?_of_shows hshows'
      rw [hid] at ht'
      obtain ⟨t'', ht'', hrevised⟩ := task?_after steps ht
      obtain rfl := Option.some.inj (ht'.symm.trans ht'')
      exact ⟨hrevised, hrevised.eq_of_mod⟩
    · rw [saveTask_eq_ok_iff, hid, hversion, task?_after_iff steps ht]
  · intro steps id l hl
    refine ⟨fun l' hl' => ?_, fun read wallet changed hid hversion => ?_⟩
    · obtain ⟨l'', hl'', hrevised⟩ := list?_after steps hl
      obtain rfl := Option.some.inj (hl'.symm.trans hl'')
      exact ⟨hrevised, hrevised.eq_of_mod⟩
    · rw [addReplicate_eq_ok_iff, hid, hversion, ← list?_after_iff steps hl]
      obtain ⟨l', hl', hrevised⟩ := list?_after steps hl
      constructor
      · rintro ⟨stored, hstored, hsame, habsent, rfl⟩
        -- the list of this version is the one that was read
        obtain rfl := Option.some.inj (hstored.symm.trans hl')
        obtain rfl := hrevised.same hsame
        exact ⟨rfl, habsent, _, hl', rfl⟩
      · rintro ⟨rfl, habsent, stored, hstored, hsame⟩
        obtain rfl := Option.some.inj (hstored.symm.trans hl')
        obtain rfl := hrevised.same hsame
        exact ⟨_, hl', rfl, habsent, rfl⟩

/-- Of two savers the second is refused, and a report in between is enough to refuse an addition. -/
theorem no_update_lost_raced : ∃ t l, revealing.Reachable ∧ revealing.store.Shows t ∧
    revealing.store.list? "0x1" = some l ∧
    (revealing.saveTask t).1 = .ok t.saved ∧
    (∀ saved, ((revealing.after [.saveTask t]).saveTask t).1 ≠ .ok saved) ∧
    (revealing.addReplicate l "0xb").1 = .ok (l.plus revealing.now "0xb" "0x1") ∧
    ∀ changed, ((revealing.after
      [.updateReplicate "0x1" "0xa" (.byPool .epoch .workerLost none)]).addReplicate l "0xb").1 ≠
        .ok changed := by
  obtain ⟨-, -, -, -, htasks, hlists⟩ := no_update_lost reachable_revealing
  have htask : revealing.store.task? "0x1" = some _ := rfl
  have hshows := Store.Shows.one htask
  have hlist : revealing.store.list? "0x1" = some _ := rfl
  refine ⟨_, _, reachable_revealing, hshows, hlist, ?_, fun saved hsaved => ?_, ?_,
    fun changed hchanged => ?_⟩
  · exact ((htasks [] _ hshows).2 _ _ rfl rfl).2 ⟨rfl, by simp⟩
  · have hnone := (((htasks _ _ hshows).2 _ _ rfl rfl).1 hsaved).2
    exact hnone _ (List.mem_singleton_self _) ⟨_, rfl, rfl, rfl⟩
  · exact ((hlists [] _ _ hlist).2 _ _ _ rfl rfl).2 ⟨rfl, by decide, by simp⟩
  · have hnone := (((hlists _ _ _ hlist).2 _ _ _ rfl rfl).1 hchanged).2.2
    exact hnone _ (List.mem_singleton_self _) (.report _ (by decide))

end Pool

end ComputePool
