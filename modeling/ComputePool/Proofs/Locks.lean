import ComputePool.Proofs.WellKept

/-!
# Free locks

Nobody waits for a lock that is free (`Locks.Prompt`): who asks for a free lock takes it, and a
lock that is given back passes to the first who waits. Whatever happens to the locks of a pool
keeps this, so it holds of every pool that began without locks (`Pool.Reachable.prompt`).

That is why a lock that was taken without waiting can be given back without a trace
(`Locks.release_tryAcquire`): the locks that are held afterwards are those that were held before,
and nobody is woken.
-/

namespace ComputePool

namespace Table

variable {κ α : Type} [DecidableEq κ]

/-- The values after a key is set are the old ones and the one that was set. -/
theorem mem_values_insert {k : κ} {a b : α} {t : Table κ α} (h : b ∈ (t.insert k a).values) :
    b = a ∨ b ∈ t.values := by
  have hin : ∀ es : List (κ × α), b ∈ (insertIn k a es).map (·.2) → b = a ∨ b ∈ es.map (·.2) := by
    intro es hb
    induction es with
    | nil => exact .inl (List.mem_singleton.1 hb)
    | cons e rest ih =>
      unfold insertIn at hb
      split at hb
      · rcases List.mem_cons.1 hb with hb | hb
        · exact .inl hb
        · exact .inr (List.mem_cons_of_mem _ hb)
      · rcases List.mem_cons.1 hb with hb | hb
        · exact .inr (List.mem_cons.2 (.inl hb))
        · exact (ih hb).imp_right (List.mem_cons_of_mem _)
  exact hin t.entries h

end Table

/-- Nobody waits for the lock while it is free. -/
def TaskLock.IsPrompt (l : TaskLock) : Prop := l.held = false → l.queue = []

/-- Of a lock that is held nothing is asked. -/
theorem TaskLock.IsPrompt.of_held {l : TaskLock} (h : l.held = true) : l.IsPrompt :=
  fun hfree => absurd (h.symm.trans hfree) (by simp)

namespace Locks

/-- Nobody waits for a free lock. -/
def Prompt (ls : Locks) : Prop := ∀ l ∈ ls.table.values, l.IsPrompt

variable {ls : Locks} (now : Instant) (id : String)

/-! ## One lock -/

/-- The lock that is found or made is held if the table says so; a new one is free. -/
theorem lockOf_held (ls : Locks) : (ls.lockOf now id).1.held = ls.isHeld id := by
  unfold lockOf isHeld
  cases ls.table.find? id with
  | none => rfl
  | some l => rfl

/-- The lock that is found or made has nobody in line if it is free. -/
theorem Prompt.lockOf (h : ls.Prompt) : (ls.lockOf now id).1.IsPrompt := by
  unfold Locks.lockOf
  cases hl : ls.table.find? id with
  | none => exact fun _ => rfl
  | some l => exact h l (Table.mem_values_of_find? hl)

/-- The lock of the id is put back changed, and no other. -/
theorem find?_access (ls : Locks) (f : TaskLock → TaskLock) (i : String) :
    (ls.access now id f).2.table.find? i =
      if id = i then some (f (ls.lockOf now id).1) else ls.table.find? i :=
  Table.find?_insert id i _ ls.table

/-- Only the lock of the id may come to be held or free. -/
theorem isHeld_access (ls : Locks) (f : TaskLock → TaskLock) (i : String) :
    (ls.access now id f).2.isHeld i =
      if id = i then (f (ls.lockOf now id).1).held else ls.isHeld i := by
  unfold isHeld
  rw [find?_access]
  split
  · rfl
  · rfl

/-- A change that leaves who holds a lock leaves which locks are held. -/
theorem isHeld_modify (ls : Locks) (t : Ticket) {f : TaskLock → TaskLock}
    (hf : ∀ l, (f l).held = l.held) (i : String) : (ls.modify t f).isHeld i = ls.isHeld i := by
  unfold modify
  split
  · next l hl =>
    split
    · unfold isHeld
      rw [Table.find?_insert]
      split
      · next hi =>
        rw [← hi, hl, Option.any_some, Option.any_some, hf]
      · rfl
    · rfl
  · rfl

theorem isHeld_touch (ls : Locks) (i : String) : (ls.touch now id).isHeld i = ls.isHeld i := by
  have hdrop : ((ls.keep now id).2.drop (ls.keep now id).1).isHeld i =
      (ls.keep now id).2.isHeld i :=
    isHeld_modify _ _ (f := fun l => { l with handles := l.handles - 1 }) (fun _ => rfl) i
  have hkeep : (ls.keep now id).2.isHeld i =
      if id = i then (ls.lockOf now id).1.held else ls.isHeld i := isHeld_access now id ls _ i
  refine hdrop.trans (hkeep.trans ?_)
  split
  · next hi => rw [← hi, ← lockOf_held now id ls]
  · rfl

/-! ## Taking a lock and giving it back -/

/-- A lock that is held is not taken, and the same ones are held afterwards. -/
theorem tryAcquire_of_held (hheld : ls.isHeld id = true) :
    (ls.tryAcquire now id).1 = none ∧ ∀ i, (ls.tryAcquire now id).2.isHeld i = ls.isHeld i := by
  unfold tryAcquire
  rw [if_pos hheld]
  exact ⟨rfl, isHeld_touch now id ls⟩

/-- A lock that is free is taken. -/
theorem tryAcquire_of_free (hfree : ls.isHeld id = false) :
    ∃ ticket, (ls.tryAcquire now id).1 = some ticket := by
  unfold tryAcquire
  rw [if_neg (by simp [hfree])]
  exact ⟨_, rfl⟩

/-- A free lock is taken. Given back, it is free again, no other has changed, and it passes to
nobody. -/
theorem release_tryAcquire (h : ls.Prompt) (hfree : ls.isHeld id = false) :
    ∃ ticket, (ls.tryAcquire now id).1 = some ticket ∧
      ((ls.tryAcquire now id).2.release ticket).1 = none ∧
      ∀ i, ((ls.tryAcquire now id).2.release ticket).2.isHeld i = ls.isHeld i := by
  set taken : TaskLock := { (ls.lockOf now id).1 with held := true } with htaken
  set ticket : Ticket := ⟨id, taken.serial⟩ with hticket
  set after := (ls.access now id fun l => { l with held := true }).2 with hafter
  have htry : ls.tryAcquire now id = (some ticket, after) := by
    unfold tryAcquire
    rw [if_neg (by simp [hfree])]
    rfl
  have hfind : ∀ i, after.table.find? i = if id = i then some taken else ls.table.find? i :=
    fun i => find?_access now id ls _ i
  have hqueue : taken.queue = [] := h.lockOf now id (by rw [lockOf_held, hfree])
  have hhere : after.table.find? ticket.id = some taken := (hfind id).trans (if_pos rfl)
  have hrelease : after.release ticket =
      (none, { after with table := after.table.insert id { taken with held := false } }) := by
    unfold release modify
    rw [hhere, Option.filter_some_pos (by simp [hticket])]
    dsimp only
    rw [hqueue]
    dsimp only
    rw [if_pos (by rw [hticket])]
  refine ⟨ticket, by rw [htry], by rw [htry, hrelease], fun i => ?_⟩
  rw [htry, hrelease]
  unfold isHeld at hfree ⊢
  dsimp only
  rw [Table.find?_insert, hfind]
  by_cases hi : id = i
  · rw [if_pos hi, ← hi, hfree]
    rfl
  · rw [if_neg hi, if_neg hi]

/-! ## What keeps free locks without a queue -/

theorem prompt_empty (ttl : Span) : (empty ttl).Prompt := fun _ hl => absurd hl List.not_mem_nil

namespace Prompt

variable (h : ls.Prompt)

include h

/-- A change of one lock that keeps it prompt keeps all of them so. -/
theorem access {f : TaskLock → TaskLock} (hf : (f (ls.lockOf now id).1).IsPrompt) :
    (ls.access now id f).2.Prompt := by
  intro l hl
  rcases Table.mem_values_insert (t := ls.table) hl with rfl | hl
  · exact hf
  · exact h l hl

/-- A change of the lock that a ticket names keeps all locks prompt if it keeps that one so. -/
theorem modify {t : Ticket} {f : TaskLock → TaskLock}
    (hf : ∀ l, ls.table.find? t.id = some l → (f l).IsPrompt) : (ls.modify t f).Prompt := by
  unfold Locks.modify
  split
  · next l hl =>
    split
    · intro k hk
      rcases Table.mem_values_insert (t := ls.table) hk with rfl | hk
      · exact hf l hl
      · exact h k hk
    · exact h
  · exact h

theorem touch : (ls.touch now id).Prompt := by
  have hkept : (ls.keep now id).2.Prompt := h.access now id (h.lockOf now id)
  exact hkept.modify fun l hl => hkept l (Table.mem_values_of_find? hl)

/-- Who takes a lock without waiting leaves nobody waiting for a free one. -/
theorem tryAcquire : (ls.tryAcquire now id).2.Prompt := by
  unfold Locks.tryAcquire
  split
  · exact h.touch now id
  · show (ls.access now id fun l => { l with held := true }).2.Prompt
    exact h.access now id (.of_held rfl)

/-- Who stands in line does so for a lock that is held. -/
theorem acquire (who : Nat) : (ls.acquire now id who).2.Prompt := by
  unfold Locks.acquire
  split
  · next hheld =>
    -- the lock is held, so it may be queued for
    rw [← lockOf_held now id ls] at hheld
    show (ls.access now id fun l => { l with queue := l.queue ++ [who] }).2.Prompt
    exact h.access now id (.of_held hheld)
  · show (ls.access now id fun l => { l with held := true }).2.Prompt
    exact h.access now id (.of_held rfl)

/-- A lock is only free again if nobody is in line for it. -/
theorem release (t : Ticket) : (ls.release t).2.Prompt := by
  unfold Locks.release
  split
  · exact h
  · next l hl =>
    obtain ⟨hfind, -⟩ := Option.filter_eq_some_iff.1 hl
    have hprompt := h l (Table.mem_values_of_find? hfind)
    split
    · next hqueue =>
      refine h.modify fun k hk _ => ?_
      rw [← Option.some.inj (hfind.symm.trans hk)]
      exact hqueue
    · next who rest hqueue =>
      -- somebody waits, so the lock is held, and stays so
      refine h.modify fun k hk hfree => ?_
      rw [← Option.some.inj (hfind.symm.trans hk)] at hfree
      exact absurd (hqueue.symm.trans (hprompt hfree)) (by simp)

/-- A sweep drops locks and changes none. -/
theorem prune : (ls.prune now).2.Prompt := by
  intro l hl
  obtain ⟨e, he, rfl⟩ := List.mem_map.1 hl
  exact h e.2 (List.mem_map_of_mem (List.mem_of_mem_filter he))

end Prompt

end Locks

/-! ## The locks of the dispatcher -/

namespace Dispatcher

variable {d : Dispatcher} (now : Instant)

/-- Only the locks differ, and the same ones are held. -/
structure Relocked (d d' : Dispatcher) : Prop where
  others : d' = { d with locks := d'.locks }
  held : ∀ id, d'.locks.isHeld id = d.locks.isHeld id

theorem Relocked.refl (d : Dispatcher) : d.Relocked d := ⟨rfl, fun _ => rfl⟩

/-- Changes of the locks alone, after which the same ones are held, may follow each other. -/
theorem Relocked.trans {d₁ d₂ d₃ : Dispatcher} (h : d₁.Relocked d₂) (h' : d₂.Relocked d₃) :
    d₁.Relocked d₃ := by
  refine ⟨?_, fun id => (h'.held id).trans (h.held id)⟩
  have hothers := h'.others
  rw [h.others] at hothers
  exact hothers

/-- A lock that is held is not taken. -/
theorem tryAcquire_of_held {id : String} (hheld : d.locks.isHeld id = true) :
    (d.tryAcquire now id).1 = none ∧ d.Relocked (d.tryAcquire now id).2 := by
  obtain ⟨hnone, hsame⟩ := Locks.tryAcquire_of_held now id hheld
  exact ⟨hnone, rfl, hsame⟩

/-- A free lock that is taken and given back leaves the rest as it was. -/
theorem release_tryAcquire (h : d.locks.Prompt) {id : String}
    (hfree : d.locks.isHeld id = false) :
    ∃ ticket, (d.tryAcquire now id).1 = some ticket ∧
      d.Relocked ((d.tryAcquire now id).2.release ticket) := by
  obtain ⟨ticket, htaken, hnobody, hsame⟩ := Locks.release_tryAcquire now id h hfree
  refine ⟨ticket, htaken, ?_, hsame⟩
  unfold release wake
  dsimp only
  have hnobody : ((d.tryAcquire now id).2.locks.release ticket).1 = none := hnobody
  rw [hnobody]
  show { d with locks := _, ready := d.ready ++ [] } = _
  rw [List.append_nil]

/-- New routines take no lock before they go on. -/
theorem locks_topUp (d : Dispatcher) : d.topUp.locks = d.locks := by
  unfold topUp
  split
  · generalize d.poolSize - d.active = n
    -- by induction on the routines that are missing
    induction n with
    | zero => rfl
    | succ n ih => exact ih
  · rfl

/-- An offer wakes a routine, and takes no lock. -/
theorem locks_offer (t : Task) (d : Dispatcher) : (d.offer now t).2.locks = d.locks := by
  unfold offer
  match d.queue.offer now t with
  | (false, q) => rfl
  | (true, q) => rfl

/-- A routine that goes on asks for at most one lock. -/
theorem prompt_resume (who : Nat) (h : d.locks.Prompt) : (d.resume now who).2.locks.Prompt := by
  unfold resume
  split
  · unfold look
    split
    · exact h
    · split
      · exact h
      · next r queue _ =>
        have hacquired := h.acquire now r.chainTaskId who
        dsimp only
        split
        · exact hacquired
        · exact hacquired
  · exact h
  · exact h

/-- Nobody waits for a free lock after any number of routines went on. -/
theorem prompt_resumeAll (l : List Nat) (h : d.locks.Prompt) :
    (d.resumeAll now l).2.locks.Prompt := by
  induction l generalizing d with
  | nil => exact h
  | cons who rest ih =>
    have hwho := prompt_resume now who h
    unfold resumeAll
    rcases hr : d.resume now who with ⟨_ | t, d'⟩
    · rw [hr] at hwho
      exact ih hwho
    · rw [hr] at hwho
      exact hwho

/-- No move of the dispatcher lets anybody wait for a free lock. -/
theorem prompt_move (m : Move) (h : d.locks.Prompt) : (d.move now m).locks.Prompt := by
  cases m with
  | take r => exact h
  | touch id => exact h.touch now id
  | setConsumer => exact h
  | topUp =>
    show d.topUp.locks.Prompt
    rw [locks_topUp]
    exact h
  | sweep => exact h.prune now
  | shutdown => exact h
  | next => exact prompt_resumeAll now d.ready h
  | turn =>
    show (d.step now).2.locks.Prompt
    unfold step
    split
    · exact h
    · next who rest _ => exact prompt_resume now who (d := { d with ready := rest }) h
  | finish who t => exact h.release t

end Dispatcher

namespace Pool

variable {p : Pool}

/-- A publication asks for no lock. -/
theorem locks_publishRequest (id : String) (p : Pool) :
    (p.perform (publishRequest id)).2.locks = p.locks := by
  rw [perform_publishRequest]
  split
  · rfl
  · split
    · rfl
    · split
      · exact Dispatcher.locks_offer _ _ _
      · rfl

/-- No step lets anybody wait for a free lock. -/
theorem prompt_step (h : p.locks.Prompt) (s : Step) : (s.apply p).locks.Prompt := by
  by_cases hpart : s.part = .dispatcher
  · cases s with
    | publish id =>
      show (p.perform (publishRequest id)).2.locks.Prompt
      rw [locks_publishRequest]
      exact h
    | tryLock id => exact h.tryAcquire p.now id
    | unlock t => exact h.release t
    | dispatch m => exact Dispatcher.prompt_move p.now m h
    | _ => exact absurd hpart (by simp [Step.part])
  · have hlocks : (s.apply p).locks = p.locks :=
      congrArg (·.locks) (Step.dispatcher_apply p hpart)
    rw [hlocks]
    exact h

/-- Nobody waits for a free lock, whatever steps are taken. -/
theorem prompt_leads {S : Step → Prop} {q : Pool} (h : p.locks.Prompt) (hq : p.Leads S q) :
    q.locks.Prompt :=
  hq.keeps (P := fun q => q.locks.Prompt) (fun s _ _ hr => prompt_step hr s) h

/-- In a pool that began without locks nobody waits for a free lock. -/
theorem Reachable.prompt (h : p.Reachable) : p.locks.Prompt := by
  obtain ⟨start, hnew, hleads⟩ := h
  obtain ⟨poolSize, ttl, hd⟩ := hnew.dispatcher
  refine prompt_leads ?_ hleads
  unfold locks
  rw [hd]
  exact Locks.prompt_empty ttl

end Pool

end ComputePool
