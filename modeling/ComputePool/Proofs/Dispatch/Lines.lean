import ComputePool.Proofs.Locks

/-!
# The lines by the locks

Three things are seen of the locks: whether the lock of an id is held (`Locks.isHeld`), who stands
in line for it (`Locks.line`), and whether a ticket names it (`Locks.Has`). `Locks.Turns` says that
the lock of one id came to be held or free, with a new line, and that no other changed; there is one
such law for each operation. A lock that is held is never swept, so a ticket for it stays good.
-/

namespace ComputePool

namespace Table

variable {κ α : Type} [DecidableEq κ]

theorem findIn_eq_none {k : κ} {es : List (κ × α)} (h : k ∉ es.map (·.1)) : findIn k es = none := by
  induction es with
  | nil => rfl
  | cons e rest ih =>
    rw [List.map_cons, List.mem_cons, not_or] at h
    unfold findIn
    rw [if_neg fun heq => h.1 heq.symm]
    exact ih h.2

/-- Keeping some entries keeps the values of their keys. -/
theorem find?_filter (p : κ → α → Bool) (k : κ) {t : Table κ α} (h : t.keys.Nodup) :
    (t.filter p).find? k = (t.find? k).filter (p k) := by
  obtain ⟨es⟩ := t
  show findIn k (es.filter fun e => p e.1 e.2) = (findIn k es).filter (p k)
  have h : (es.map (·.1)).Nodup := h
  induction es with
  | nil => rfl
  | cons e rest ih =>
    obtain ⟨hfirst, hrest⟩ := List.nodup_cons.1 h
    have ih := ih hrest hrest
    by_cases hk : e.1 = k
    · -- the key occurs once, so the rest has nothing to say
      subst hk
      rw [findIn_eq_none hfirst] at ih
      by_cases hp : p e.1 e.2
      · simp [findIn, hp, Option.filter_some_pos]
      · simp [findIn, hp, ih, Option.filter_some_neg]
    · by_cases hp : p e.1 e.2
      · simp [findIn, hp, hk, ih]
      · simp [findIn, hp, hk, ih]

end Table

namespace Locks

variable {ls ls' : Locks} {t : Ticket} (now : Instant) (id : String)

/-- Who waits for the lock of an id, the first comer first. -/
def line (id : String) (ls : Locks) : List Nat := ((ls.table.find? id).map (·.queue)).getD []

/-- The ticket names a lock of the table. -/
def Has (ls : Locks) (t : Ticket) : Prop := (ls.table.find? t.id).map (·.serial) = some t.serial

/-- What holds of locks at all times. -/
structure Sound (ls : Locks) : Prop where
  prompt : ls.Prompt
  distinct : ls.table.keys.Nodup

/-- The lock of the id came to be held or free, with this line; no other changed. -/
structure Turns (ls ls' : Locks) (id : String) (held : Bool) (line : List Nat) : Prop where
  held : ∀ i, ls'.isHeld i = if i = id then held else ls.isHeld i
  line : ∀ i, ls'.line i = if i = id then line else ls.line i
  has : ∀ t, ls.Has t → ls.isHeld t.id = true → ls'.Has t
  sound : ls'.Sound

/-- Nothing changed that is seen. -/
theorem Turns.of_same (hheld : ∀ i, ls'.isHeld i = ls.isHeld i)
    (hline : ∀ i, ls'.line i = ls.line i)
    (hhas : ∀ t, ls.Has t → ls.isHeld t.id = true → ls'.Has t) (hsound : ls'.Sound) :
    ls.Turns ls' id (ls.isHeld id) (ls.line id) := by
  refine ⟨fun i => ?_, fun i => ?_, hhas, hsound⟩
  · rw [hheld]
    split
    · next hi => rw [hi]
    · rfl
  · rw [hline]
    split
    · next hi => rw [hi]
    · rfl

theorem sound_empty (ttl : Span) : (empty ttl).Sound := ⟨prompt_empty ttl, List.nodup_nil⟩

/-- Nobody stands in line for a free lock. -/
theorem Sound.line_of_free (h : ls.Sound) {id : String} (hfree : ls.isHeld id = false) :
    ls.line id = [] := by
  unfold isHeld at hfree
  unfold line
  cases hl : ls.table.find? id with
  | none => rfl
  | some l =>
    rw [hl] at hfree
    exact h.prompt l (Table.mem_values_of_find? hl) hfree

/-! ## One lock -/

theorem lockOf_queue (ls : Locks) : (ls.lockOf now id).1.queue = ls.line id := by
  unfold lockOf line
  cases ls.table.find? id with
  | none => rfl
  | some l => rfl

theorem line_access (ls : Locks) (f : TaskLock → TaskLock) (i : String) :
    (ls.access now id f).2.line i =
      if id = i then (f (ls.lockOf now id).1).queue else ls.line i := by
  unfold line
  rw [find?_access]
  split
  · rfl
  · rfl

/-- Who asks for a lock has a ticket for it. -/
theorem has_access_self (ls : Locks) {f : TaskLock → TaskLock} (hf : ∀ l, (f l).serial = l.serial) :
    (ls.access now id f).2.Has (ls.access now id f).1 := by
  unfold Has
  have hid : (ls.access now id f).1.id = id := rfl
  rw [hid, find?_access, if_pos rfl, Option.map_some, hf]
  rfl

theorem has_access {f : TaskLock → TaskLock} (hf : ∀ l, (f l).serial = l.serial) (h : ls.Has t) :
    (ls.access now id f).2.Has t := by
  unfold Has at h ⊢
  rw [find?_access]
  split
  · next hid =>
    rw [hid, Option.map_some, hf]
    unfold lockOf
    cases hl : ls.table.find? t.id with
    | none =>
      rw [hl] at h
      exact absurd h (by simp)
    | some l =>
      rw [hl] at h
      exact h
  · exact h

/-- A change of the lock that a ticket names. -/
theorem find?_modify (h : ls.Has t) (f : TaskLock → TaskLock) (i : String) :
    (ls.modify t f).table.find? i =
      if t.id = i then (ls.table.find? i).map f else ls.table.find? i := by
  unfold modify
  unfold Has at h
  cases hl : ls.table.find? t.id with
  | none =>
    rw [hl] at h
    exact absurd h (by simp)
  | some l =>
    rw [hl] at h
    dsimp only
    rw [if_pos (Option.some.inj h), Table.find?_insert]
    by_cases hi : t.id = i
    · rw [if_pos hi, if_pos hi, ← hi, hl]
      rfl
    · rw [if_neg hi, if_neg hi]

theorem has_modify {t' : Ticket} {f : TaskLock → TaskLock} (hf : ∀ l, (f l).serial = l.serial)
    (h : ls.Has t) (h' : ls.Has t') : (ls.modify t f).Has t' := by
  unfold Has at h' ⊢
  rw [find?_modify h]
  split
  · rw [Option.map_map]
    have hserial : (fun l : TaskLock => l.serial) ∘ f = fun l => l.serial := funext hf
    rw [hserial]
    exact h'
  · exact h'

namespace Sound

variable (h : ls.Sound)

include h

/-- Who asks for a lock may change it. -/
theorem access {f : TaskLock → TaskLock} (hserial : ∀ l, (f l).serial = l.serial)
    (hf : (f (ls.lockOf now id).1).IsPrompt) :
    ls.Turns (ls.access now id f).2 id (f (ls.lockOf now id).1).held
      (f (ls.lockOf now id).1).queue := by
  refine ⟨fun i => ?_, fun i => ?_, fun t ht _ => has_access now id hserial ht,
    h.prompt.access now id hf, Table.nodup_keys_insert id _ h.distinct⟩
  · rw [isHeld_access]
    exact if_congr eq_comm rfl rfl
  · rw [line_access]
    exact if_congr eq_comm rfl rfl

theorem modify {f : TaskLock → TaskLock}
    (hf : ∀ l, ls.table.find? t.id = some l → (f l).IsPrompt) : (ls.modify t f).Sound := by
  refine ⟨h.prompt.modify hf, ?_⟩
  unfold Locks.modify
  split
  · split
    · exact Table.nodup_keys_insert t.id _ h.distinct
    · exact h.distinct
  · exact h.distinct

/-! ## The operations -/

/-- Asking for a lock changes nothing that is seen. -/
theorem touch : ls.Turns (ls.touch now id) id (ls.isHeld id) (ls.line id) := by
  set kept := ls.access now id fun l => { l with handles := l.handles + 1 } with hkept
  have htouch : ls.touch now id =
      kept.2.modify kept.1 fun l => { l with handles := l.handles - 1 } :=
    rfl
  have hturns := h.access now id (f := fun l => { l with handles := l.handles + 1 }) (fun _ => rfl)
    (h.prompt.lockOf now id)
  have hticket : kept.2.Has kept.1 := has_access_self now id ls fun _ => rfl
  refine .of_same id (isHeld_touch now id ls) (fun i => ?_) (fun t ht hheld => ?_) ?_
  · have hkeep : kept.2.line i = _ := hturns.line i
    rw [lockOf_queue] at hkeep
    have hline : (ls.touch now id).line i = kept.2.line i := by
      rw [htouch]
      unfold line
      rw [find?_modify hticket]
      split
      · rw [Option.map_map]
        rfl
      · rfl
    rw [hline, hkeep]
    split
    · next hi => rw [hi]
    · rfl
  · rw [htouch]
    exact has_modify (fun _ => rfl) hticket (hturns.has t ht hheld)
  · rw [htouch]
    exact hturns.sound.modify fun l hl => hturns.sound.prompt l (Table.mem_values_of_find? hl)

/-- A sweep changes nothing that is seen: who holds a lock or waits for it keeps it in the table. -/
theorem prune : ls.Turns (ls.prune now).2 id (ls.isHeld id) (ls.line id) := by
  have hfind : ∀ i, (ls.prune now).2.table.find? i =
      (ls.table.find? i).filter (survives now ls.ttl) := fun i => Table.find?_filter _ i h.distinct
  -- a lock that is swept is free, and nobody waits for it
  have hswept : ∀ l, ¬ survives now ls.ttl l = true → l.held = false ∧ l.queue = [] := by
    intro l hl
    unfold survives TaskLock.isReferenced at hl
    simp only [Bool.or_eq_true, not_or, Bool.not_eq_true, Bool.not_eq_false',
      List.isEmpty_iff] at hl
    exact hl.1.1
  refine .of_same id (fun i => ?_) (fun i => ?_) (fun t ht hheld => ?_)
    ⟨h.prompt.prune now, h.distinct.sublist (List.filter_sublist.map _)⟩
  · unfold isHeld
    rw [hfind]
    cases ls.table.find? i with
    | none => rfl
    | some l =>
      by_cases hl : survives now ls.ttl l = true
      · rw [Option.filter_some_pos hl]
      · rw [Option.filter_some_neg (Bool.eq_false_iff.2 hl)]
        exact (hswept l hl).1.symm
  · unfold line
    rw [hfind]
    cases ls.table.find? i with
    | none => rfl
    | some l =>
      by_cases hl : survives now ls.ttl l = true
      · rw [Option.filter_some_pos hl]
      · rw [Option.filter_some_neg (Bool.eq_false_iff.2 hl)]
        exact (hswept l hl).2.symm
  · unfold Has isHeld at *
    rw [hfind]
    cases hl : ls.table.find? t.id with
    | none =>
      rw [hl] at hheld
      exact absurd hheld (by simp)
    | some l =>
      rw [hl] at ht hheld
      have hsurvives : survives now ls.ttl l = true := by
        by_contra hno
        exact absurd ((hswept l hno).1.symm.trans hheld) (by simp)
      rw [Option.filter_some_pos hsurvives]
      exact ht

/-- Who waits for a lock that is held stands last in its line. -/
theorem acquire_of_held (who : Nat) (hheld : ls.isHeld id = true) :
    ∃ t ls', ls.acquire now id who = ((t, false), ls') ∧ t.id = id ∧ ls'.Has t ∧
      ls.Turns ls' id true (ls.line id ++ [who]) := by
  have hlock := (lockOf_held now id ls).trans hheld
  have hturns := h.access now id (f := fun l => { l with queue := l.queue ++ [who] }) (fun _ => rfl)
    (.of_held hlock)
  dsimp only at hturns
  rw [hlock, lockOf_queue] at hturns
  have hticket := has_access_self now id ls (f := fun l => { l with queue := l.queue ++ [who] })
    fun _ => rfl
  refine ⟨_, _, ?_, rfl, hticket, hturns⟩
  unfold Locks.acquire
  rw [if_pos hheld]

/-- A free lock is taken. -/
theorem acquire_of_free (who : Nat) (hfree : ls.isHeld id = false) :
    ∃ t ls', ls.acquire now id who = ((t, true), ls') ∧ ls.tryAcquire now id = (some t, ls') ∧
      t.id = id ∧ ls'.Has t ∧ ls.Turns ls' id true [] := by
  have hturns := h.access now id (f := fun l => { l with held := true }) (fun _ => rfl)
    (.of_held rfl)
  dsimp only at hturns
  rw [lockOf_queue, h.line_of_free hfree] at hturns
  have hticket := has_access_self now id ls (f := fun l => { l with held := true }) fun _ => rfl
  refine ⟨_, _, ?_, ?_, rfl, hticket, hturns⟩
  · unfold Locks.acquire
    rw [if_neg (by simp [hfree])]
  · unfold Locks.tryAcquire
    rw [if_neg (by simp [hfree])]

/-- A lock that is held is not taken. -/
theorem tryAcquire_of_held (hheld : ls.isHeld id = true) :
    ∃ ls', ls.tryAcquire now id = (none, ls') ∧ ls.Turns ls' id (ls.isHeld id) (ls.line id) := by
  unfold Locks.tryAcquire
  rw [if_pos hheld]
  exact ⟨_, rfl, h.touch now id⟩

/-- A lock that is given back passes to the first in line; it is free if there is none. -/
theorem release (ht : ls.Has t) (hheld : ls.isHeld t.id = true) :
    ∃ ls', ls.release t = ((ls.line t.id).head?, ls') ∧
      ls.Turns ls' t.id (!(ls.line t.id).isEmpty) (ls.line t.id).tail := by
  unfold Locks.release
  have hhas := ht
  unfold Has at ht
  unfold isHeld at hheld
  cases hl : ls.table.find? t.id with
  | none =>
    rw [hl] at ht
    exact absurd ht (by simp)
  | some l =>
    rw [hl] at ht hheld
    have hserial : l.serial = t.serial := Option.some.inj ht
    have hline : ls.line t.id = l.queue := by
      unfold line
      rw [hl]
      rfl
    rw [hline, Option.filter_some_pos (by simpa using hserial)]
    have hprompt := h.prompt l (Table.mem_values_of_find? hl)
    -- what is seen of the changed lock, whichever way it was changed
    have hturns : ∀ f : TaskLock → TaskLock, (∀ l, (f l).serial = l.serial) →
        (f l).IsPrompt → ls.Turns (ls.modify t f) t.id (f l).held (f l).queue := by
      intro f hf hfl
      refine ⟨fun i => ?_, fun i => ?_, fun t' ht' _ => has_modify hf hhas ht',
        h.modify fun k hk => ?_⟩
      · unfold isHeld
        rw [find?_modify hhas]
        by_cases hi : t.id = i
        · rw [if_pos hi, if_pos hi.symm, ← hi, hl]
          rfl
        · rw [if_neg hi, if_neg (Ne.symm hi)]
      · unfold line
        rw [find?_modify hhas]
        by_cases hi : t.id = i
        · rw [if_pos hi, if_pos hi.symm, ← hi, hl]
          rfl
        · rw [if_neg hi, if_neg (Ne.symm hi)]
      · rw [← Option.some.inj (hl.symm.trans hk)]
        exact hfl
    dsimp only
    cases hqueue : l.queue with
    | nil =>
      have hfreed := hturns (fun l => { l with held := false }) (fun _ => rfl) fun _ => hqueue
      rw [hqueue] at hfreed
      exact ⟨_, rfl, hfreed⟩
    | cons who rest =>
      have hpassed := hturns (fun l => { l with queue := rest }) (fun _ => rfl) (.of_held hheld)
      have hheld' : l.held = true := hheld
      dsimp only at hpassed
      rw [hheld'] at hpassed
      exact ⟨_, rfl, hpassed⟩

end Sound

end Locks

end ComputePool
