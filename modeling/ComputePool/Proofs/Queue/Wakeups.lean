import ComputePool.Proofs.Queue.Session

/-!
# No ring is lost

Who finds the queue empty waits by the bell, so as long as anybody waits the requests in the queue
came after that, and each of them woke a taker who has not looked yet. `Attended` says so: if
anybody waits there are at least as many takers to look for a request as there are requests. A taker
who goes on uses up one of both. Requests that are taken at once or pruned only leave more takers
than requests; those takers wait again.

It follows that nobody waits by a queue that holds a request once everyone who can go on has done so
(`no_lost_wakeup`).
-/

namespace ComputePool.Session

open Request

variable {s : Session}

/-- While anybody waits, there is a taker on the way for each request; and every taker who came is
on the way, waits, or was served. -/
structure Attended (s : Session) : Prop where
  enough : s.counter.bell.waiting ≠ [] → s.queue.size ≤ s.counter.ready.length
  takers : (s.counter.ready ++ s.counter.bell.waiting ++ s.counter.served.map Prod.fst).Perm
    (List.range s.arrivals)

/-- In a new session nobody waits and nothing is queued. -/
theorem attended_opened (now : Instant) (ttl : Span) : (opened now ttl).Attended :=
  ⟨fun h => absurd rfl h, .refl _⟩

/-! ## Moves -/

namespace Attended

variable (h : s.Attended)

include h

/-- Nobody loses by it if requests go. -/
theorem shrink {s' : Session} (hsize : s'.queue.size ≤ s.queue.size)
    (hready : s'.counter.ready = s.counter.ready) (hbell : s'.counter.bell = s.counter.bell)
    (hserved : s'.counter.served = s.counter.served) (harrivals : s'.arrivals = s.arrivals) :
    s'.Attended := by
  refine ⟨fun hwait => ?_, ?_⟩
  · rw [hready]
    rw [hbell] at hwait
    exact hsize.trans (h.enough hwait)
  · rw [hready, hbell, hserved, harrivals]
    exact h.takers

/-- An accepted offer wakes somebody who waits. -/
theorem offer (t : Task) : (s.apply (.offer t)).Attended := by
  show Attended { s with counter := (s.counter.offer s.now t).2, accepted := _ }
  unfold Counter.offer UpdateQueue.offer
  by_cases hqueued : s.counter.queue.contains t.chainTaskId
  · rw [if_pos hqueued]
    exact h.shrink (Nat.le_refl _) rfl rfl rfl rfl
  · rw [if_neg hqueued]
    obtain ⟨henough, htakers⟩ := h
    unfold Bell.ring
    dsimp only
    cases hwaiting : s.counter.bell.waiting with
    | nil =>
      rw [hwaiting] at htakers
      refine ⟨fun hwait => absurd rfl hwait, ?_⟩
      show ((s.counter.ready ++ []) ++ [] ++ s.counter.served.map Prod.fst).Perm _
      rw [List.append_nil]
      exact htakers
    | cons who rest =>
      rw [hwaiting] at henough htakers
      refine ⟨fun _ => ?_, ?_⟩
      · -- one request more, and one taker more who looks for it
        show (s.counter.queue.entries ++ [_]).length ≤ (s.counter.ready ++ [who]).length
        rw [List.length_append, List.length_append]
        exact Nat.add_le_add_right (henough (List.cons_ne_nil who rest)) 1
      · show ((s.counter.ready ++ [who]) ++ rest ++ s.counter.served.map Prod.fst).Perm _
        rw [List.append_assoc s.counter.ready]
        exact htakers

/-- A taker who comes is on the way at first. -/
theorem arrive : (s.apply .arrive).Attended := by
  refine ⟨fun hwait => ?_, ?_⟩
  · show s.queue.size ≤ (s.counter.ready ++ [s.arrivals]).length
    rw [List.length_append]
    exact (h.enough hwait).trans (Nat.le_add_right _ _)
  · show ((s.counter.ready ++ [s.arrivals]) ++ s.counter.bell.waiting ++
      s.counter.served.map Prod.fst).Perm (List.range (s.arrivals + 1))
    rw [List.range_succ]
    refine List.Perm.trans ?_ (h.takers.append_right [s.arrivals])
    simp only [List.append_assoc]
    refine List.Perm.append_left _ ?_
    rw [← List.append_assoc s.counter.bell.waiting]
    exact List.perm_append_comm

/-- A taker takes a request away, or finds none and waits. -/
theorem turn (who : Nat) : (s.apply (.turn who)).Attended := by
  show Attended { s with counter := s.counter.turn who }
  unfold Counter.turn
  by_cases hwho : who ∈ s.counter.ready
  · rw [if_pos hwho, Counter.attempt_eq, UpdateQueue.pop_eq]
    have hready := List.perm_cons_erase hwho
    have hlength := hready.length_eq
    rw [List.length_cons] at hlength
    have htakers := ((hready.symm.append_right s.counter.bell.waiting).append_right
      (s.counter.served.map Prod.fst)).trans h.takers
    dsimp only
    cases hfirst : first? s.counter.queue.entries with
    | none =>
      have hempty : s.counter.queue.size = 0 :=
        List.length_eq_zero_iff.2 (first?_eq_none.1 hfirst)
      refine ⟨fun _ => ?_, ?_⟩
      · show s.counter.queue.size ≤ _
        rw [hempty]
        exact Nat.zero_le _
      · show (s.counter.ready.erase who ++ (s.counter.bell.waiting ++ [who]) ++
          (s.counter.served ++ []).map Prod.fst).Perm _
        rw [List.append_nil, ← List.append_assoc]
        exact (List.perm_append_singleton who _).append_right _ |>.trans htakers
    | some r =>
      have hsize := UpdateQueue.size_remove (first?_mem hfirst)
      refine ⟨fun hwait => ?_, ?_⟩
      · show (s.counter.queue.remove r).size ≤ (s.counter.ready.erase who).length
        have henough : s.counter.queue.size ≤ s.counter.ready.length := h.enough hwait
        omega
      · show (s.counter.ready.erase who ++ s.counter.bell.waiting ++
          (s.counter.served ++ [(who, r)]).map Prod.fst).Perm _
        rw [List.map_append, ← List.append_assoc]
        exact (List.perm_append_singleton who _).trans htakers
  · rw [if_neg hwho]
    exact h

/-- Every move keeps the session attended, apart from settling, which is made of turns. -/
theorem apply {m : Move} (hm : m ≠ .settle) : (s.apply m).Attended := by
  cases m with
  | offer t => exact h.offer t
  | tryTake =>
    refine h.shrink ?_ rfl rfl rfl rfl
    show s.queue.pop.2.size ≤ s.queue.size
    rw [UpdateQueue.pop_eq]
    cases first? s.queue.entries with
    | none => exact Nat.le_refl _
    | some r => exact (s.queue.entries_remove_sublist r).length_le
  | prune => exact h.shrink (List.length_filter_le _ _) rfl rfl rfl rfl
  | advance ms => exact h.shrink (Nat.le_refl _) rfl rfl rfl rfl
  | arrive => exact h.arrive
  | turn who => exact h.turn who
  | settle => exact absurd rfl hm

end Attended

/-- Every session is attended at all times. -/
theorem Reachable.attended (h : s.Reachable) : s.Attended :=
  h.induction attended_opened fun _ _ hm hs => hs.apply hm

/-! ## What takers got -/

/-- A taker gets a request only when it is its turn, and then the one that precedes all others. -/
theorem served_apply {m : Move} (hm : m ≠ .settle) (h : s.Reachable) :
    (s.apply m).counter.served = s.counter.served ∨
      ∃ who r, m = .turn who ∧ who ∈ s.counter.ready ∧ r ∈ s.queue.entries ∧
        (∀ x ∈ s.queue.entries, x ≠ r → compare x r = .lt) ∧
        (s.apply m).counter.served = s.counter.served ++ [(who, r)] := by
  cases m with
  | offer t =>
    refine .inl ?_
    show (s.counter.offer s.now t).2.served = s.counter.served
    unfold Counter.offer
    rcases s.counter.queue.offer s.now t with ⟨_ | _, q⟩
    · rfl
    · rfl
  | turn who =>
    show (s.counter.turn who).served = _ ∨ ∃ who' r, _ ∧ _ ∧ _ ∧ _ ∧ (s.counter.turn who).served = _
    unfold Counter.turn
    split
    · next hwho =>
      rw [Counter.attempt_eq]
      dsimp only
      by_cases hempty : s.queue.entries = []
      · refine .inl ?_
        have hpop : s.counter.queue.pop = _ := UpdateQueue.pop_of_nil hempty
        rw [hpop]
        exact List.append_nil _
      · obtain ⟨r, hr, hpop, hfirst⟩ := UpdateQueue.pop_of_ne_nil h.ledger.numbered_entries hempty
        have hpop : s.counter.queue.pop = _ := hpop
        refine .inr ⟨who, r, rfl, hwho, hr, fun x hx hne => compare_eq_lt.2 (hfirst x hx hne), ?_⟩
        rw [hpop]
        rfl
    · exact .inl rfl
  | settle => exact absurd rfl hm
  | _ => exact .inl rfl

/-- The receipt was given in a turn of an earlier session, for the greatest request queued then. -/
def Given (s : Session) (receipt : Nat × Request) : Prop :=
  ∃ before : Session, before.Reachable ∧ receipt.1 ∈ before.counter.ready ∧
    receipt.2 ∈ before.queue.entries ∧
    (∀ x ∈ before.queue.entries, x ≠ receipt.2 → compare x receipt.2 = .lt) ∧
    (before.apply (.turn receipt.1)).counter.served = before.counter.served ++ [receipt] ∧
    ∃ moves, (before.apply (.turn receipt.1)).after moves = s

/-- Whatever was served was the greatest request at the time, and was given to a taker who was on
the way. -/
theorem Reachable.given (h : s.Reachable) : ∀ receipt ∈ s.counter.served, s.Given receipt := by
  refine (h.induction (P := fun s => s.Reachable ∧ ∀ receipt ∈ s.counter.served, s.Given receipt)
    (fun now ttl => ⟨reachable_opened now ttl, fun _ hmem => absurd hmem List.not_mem_nil⟩)
    fun s m hm ⟨hreach, hgiven⟩ => ⟨hreach.after [m], fun receipt hmem => ?_⟩).2
  -- what was given before this move was given before
  have hearlier : receipt ∈ s.counter.served → (s.apply m).Given receipt := by
    intro hmem
    obtain ⟨before, hbefore, hready, hqueued, hgreatest, hserved, moves, rfl⟩ := hgiven receipt hmem
    exact ⟨before, hbefore, hready, hqueued, hgreatest, hserved, moves ++ [m],
      after_append moves [m] _⟩
  rcases served_apply hm hreach with hsame | ⟨who, r, rfl, hwho, hr, hgreatest, hserved⟩
  · rw [hsame] at hmem
    exact hearlier hmem
  · rw [hserved] at hmem
    rcases List.mem_append.1 hmem with hmem | hmem
    · exact hearlier hmem
    · obtain rfl := List.mem_singleton.1 hmem
      exact ⟨s, hreach, hwho, hr, hgreatest, hserved, [], rfl⟩

/-- No wake-up is lost, whatever happened in the session.

* Once nobody can go on, in whatever order those went who could, the queue is empty or nobody waits;
  so it is after a settling.
* Whatever a taker got was the greatest queued request when the taker got it.
* No taker is served twice, and nobody gets a request that was got or taken before.
* Every taker who came is on the way, waits or was served. -/
theorem no_lost_wakeup (h : s.Reachable) :
    ((s.counter.ready = [] → s.queue.entries = [] ∨ s.counter.bell.waiting = []) ∧
      (s.apply .settle).counter.ready = [] ∧
      ((s.apply .settle).queue.entries = [] ∨ (s.apply .settle).counter.bell.waiting = [])) ∧
    (∀ receipt ∈ s.counter.served, ∃ before : Session, before.Reachable ∧
      receipt.1 ∈ before.counter.ready ∧ receipt.2 ∈ before.queue.entries ∧
      (∀ x ∈ before.queue.entries, x ≠ receipt.2 → compare x receipt.2 = .lt) ∧
      (before.apply (.turn receipt.1)).counter.served = before.counter.served ++ [receipt] ∧
      ∃ moves, (before.apply (.turn receipt.1)).after moves = s) ∧
    ((s.counter.served.map Prod.fst).Nodup ∧ (s.counter.served.map (·.2) ++ s.taken).Nodup) ∧
    (s.counter.ready ++ s.counter.bell.waiting ++ s.counter.served.map Prod.fst).Perm
      (List.range s.arrivals) := by
  have hrest : ∀ {s : Session}, s.Reachable → s.counter.ready = [] →
      s.queue.entries = [] ∨ s.counter.bell.waiting = [] := by
    intro s h hready
    by_cases hwait : s.counter.bell.waiting = []
    · exact .inr hwait
    · -- somebody waits, so there is no request without a taker on the way
      have henough := h.attended.enough hwait
      rw [hready] at henough
      exact .inl (List.length_eq_zero_iff.1 (Nat.le_zero.1 henough))
  have htakers := h.attended.takers
  refine ⟨⟨hrest h, rfl, hrest (h.after [.settle]) rfl⟩, h.given, ⟨?_, ?_⟩, htakers⟩
  · exact (htakers.nodup_iff.2 List.nodup_range).sublist (List.sublist_append_right _ _)
  · exact h.ledger.nodup.sublist
      ((List.sublist_append_left _ s.dropped).trans (List.sublist_append_right _ _))

/-- Two takers wait; two requests wake both, but the greater one is taken at once. The first taker
gets the other request, and the second waits again. -/
def stolen : Session :=
  (opened .epoch (.ofSeconds 60)).after [.arrive, .arrive, .settle, .offer (.plain "0x1"),
    .offer { Task.plain "0x2" with status := .running }, .tryTake, .settle]

/-- In the end no request is left, and the second taker waits. -/
theorem no_lost_wakeup_stolen :
    stolen.Reachable ∧ stolen.taken.map (·.chainTaskId) = ["0x2"] ∧
      stolen.counter.served.map (fun x => (x.1, x.2.chainTaskId)) = [(0, "0x1")] ∧
      stolen.counter.bell.waiting = [1] ∧ stolen.counter.ready = [] ∧
      (stolen.queue.entries = [] ∨ stolen.counter.bell.waiting = []) := by
  have hreach : stolen.Reachable := (reachable_opened .epoch (.ofSeconds 60)).after _
  obtain ⟨⟨hrest, -⟩, -⟩ := no_lost_wakeup hreach
  exact ⟨hreach, rfl, rfl, rfl, rfl, hrest rfl⟩

end ComputePool.Session
