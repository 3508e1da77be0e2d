import ComputePool.Proofs.Queue.Coherence

/-!
# The order in which requests are served

A request is served before another if its task is further on; if both are equally far, if its
deadline is earlier; and then, if it was made earlier (`Request.precedes_iff`). Requests that carry
different numbers are never equal in this order, so of a list whose numbers increase

* exactly one request is served first (`Request.precedes_of_first?`),
* there is one order in which all of them are served (`Request.eq_of_servedInOrder`).

That order is the stable sort by status and deadline alone, the numbers being what stability stands
for (`UpdateQueue.drain_eq_mergeSort`), and requests that are dropped leave the order of the others
(`UpdateQueue.drain_prune`).
-/

namespace ComputePool

namespace Instant

variable {a b : Instant}

theorem lt_def : a < b ↔ a.second < b.second ∨ a.second = b.second ∧ a.nano < b.nano := Iff.rfl

theorem le_def : a ≤ b ↔ a.second < b.second ∨ a.second = b.second ∧ a.nano ≤ b.nano := Iff.rfl

theorem eq_iff : a = b ↔ a.second = b.second ∧ a.nano = b.nano := by
  obtain ⟨second, nano, _⟩ := a
  obtain ⟨second', nano', _⟩ := b
  simp only [Instant.mk.injEq]

/-- The comparison says greater where the second instant is the earlier one. -/
theorem compare_eq_gt : compare a b = .gt ↔ b < a := by
  show (compare a.second b.second).then (compare a.nano b.nano) = .gt ↔ _
  rw [Ordering.then_eq_gt, Int.compare_eq_gt, Int.compare_eq_eq, Nat.compare_eq_gt, lt_def]
  omega

theorem compare_eq_eq : compare a b = .eq ↔ a = b := by
  show (compare a.second b.second).then (compare a.nano b.nano) = .eq ↔ _
  rw [Ordering.then_eq_eq, Int.compare_eq_eq, Nat.compare_eq_eq, eq_iff]

/-- Compared the other way round the answer is turned over. -/
theorem compare_swap (a b : Instant) : (compare a b).swap = compare b a := by
  show ((compare a.second b.second).then (compare a.nano b.nano)).swap = _
  rw [Ordering.swap_then, Int.compare_swap, Nat.compare_swap]
  rfl

end Instant

namespace Request

variable {a b c r : Request} {l : List Request}

/-- By status and deadline alone the request need not be served after the other. -/
def mayPrecede (a b : Request) : Bool :=
  decide (b.status < a.status) || (a.status == b.status && decide (a.deadline ≤ b.deadline))

/-! ## The order of two requests -/

/-- A request that is further on goes first, and of two that are as far on the one with the earlier
deadline. -/
theorem mayPrecede_iff : a.mayPrecede b = true ↔
    b.status.rank < a.status.rank ∨ a.status.rank = b.status.rank ∧ a.deadline ≤ b.deadline := by
  unfold mayPrecede
  rw [Bool.or_eq_true, Bool.and_eq_true, decide_eq_true_iff, decide_eq_true_iff, beq_iff_eq,
    TaskStatus.lt_iff_rank, TaskStatus.eq_iff_rank]

/-- Precedence carries over from one request to the next. -/
theorem mayPrecede_trans (hab : a.mayPrecede b = true) (hbc : b.mayPrecede c = true) :
    a.mayPrecede c = true := by
  rw [mayPrecede_iff, Instant.le_def] at *
  omega

/-- Of two requests one may precede the other. -/
theorem mayPrecede_total (a b : Request) : (a.mayPrecede b || b.mayPrecede a) = true := by
  rw [Bool.or_eq_true, mayPrecede_iff, mayPrecede_iff, Instant.le_def, Instant.le_def]
  omega

/-- A request precedes another by its status, then by its deadline, then by its number. -/
theorem precedes_iff : a.precedes b = true ↔
    b.status.rank < a.status.rank ∨ a.status.rank = b.status.rank ∧
      (a.deadline < b.deadline ∨ a.deadline = b.deadline ∧ a.seq < b.seq) := by
  have hstatus : ∀ x y : TaskStatus, compare x y = compare x.rank y.rank := fun _ _ => rfl
  unfold precedes
  rw [beq_iff_eq]
  show (compare a.status b.status).then
    ((compare b.deadline a.deadline).then (compare b.seq a.seq)) = .gt ↔ _
  rw [Ordering.then_eq_gt, Ordering.then_eq_gt, hstatus, Nat.compare_eq_gt, Nat.compare_eq_eq,
    Instant.compare_eq_gt, Instant.compare_eq_eq, Nat.compare_eq_gt, eq_comm (a := b.deadline)]

/-- Where the keys are equal, the earlier request precedes; the others are told apart by them. -/
theorem precedes_of_mayPrecede (h : a.mayPrecede b = true)
    (hseq : b.mayPrecede a = true → a.seq < b.seq) : a.precedes b = true := by
  rw [mayPrecede_iff, Instant.le_def] at h hseq
  rw [precedes_iff, Instant.lt_def, Instant.eq_iff]
  omega

/-- The comparison of the heap is the same from both sides. -/
theorem compare_swap (a b : Request) : (compare a b).swap = compare b a := by
  have hstatus : (compare a.status b.status).swap = compare b.status a.status :=
    Nat.compare_swap _ _
  show ((compare a.status b.status).then
    ((compare b.deadline a.deadline).then (compare b.seq a.seq))).swap = _
  rw [Ordering.swap_then, Ordering.swap_then, hstatus, Instant.compare_swap, Nat.compare_swap]
  rfl

/-- The lesser request is the one that is served after the other. -/
theorem compare_eq_lt : compare a b = .lt ↔ b.precedes a = true := by
  unfold precedes
  rw [beq_iff_eq, ← compare_swap a b]
  cases compare a b <;> decide

theorem not_precedes_self (a : Request) : ¬ a.precedes a = true := by
  rw [precedes_iff, Instant.lt_def]
  omega

theorem precedes_asymm (h : a.precedes b = true) : ¬ b.precedes a = true := by
  rw [precedes_iff, Instant.lt_def, Instant.eq_iff] at *
  omega

/-- Precedence is transitive, with the numbers to tell equals apart. -/
theorem precedes_trans (hab : a.precedes b = true) (hbc : b.precedes c = true) :
    a.precedes c = true := by
  rw [precedes_iff, Instant.lt_def, Instant.eq_iff] at *
  omega

/-- Of two requests with different numbers one precedes the other. -/
theorem precedes_or_precedes (h : a.seq ≠ b.seq) : a.precedes b = true ∨ b.precedes a = true := by
  rw [precedes_iff, precedes_iff, Instant.lt_def, Instant.lt_def, Instant.eq_iff, Instant.eq_iff]
  omega

/-! ## Requests with increasing numbers -/

/-- The requests carry increasing numbers. -/
def Numbered (l : List Request) : Prop := l.Pairwise fun a b => a.seq < b.seq

namespace Numbered

/-- Requests that are left over keep their numbers apart. -/
theorem sublist {l' : List Request} (h : Numbered l) (hl : l'.Sublist l) : Numbered l' :=
  List.Pairwise.sublist hl h

theorem nodup (h : Numbered l) : l.Nodup := by
  refine List.Pairwise.imp (fun {a b} hab => ?_) h
  rintro rfl
  exact Nat.lt_irrefl _ hab

/-- A number names one request. -/
theorem eq_of_seq (h : Numbered l) (ha : a ∈ l) (hb : b ∈ l) (hseq : a.seq = b.seq) : a = b := by
  have hnodup : (l.map (·.seq)).Nodup :=
    List.pairwise_map.2 (List.Pairwise.imp (fun hab => Nat.ne_of_lt hab) h)
  exact List.inj_on_of_nodup_map hnodup ha hb hseq

/-- Of two different requests of a queue one precedes the other. -/
theorem precedes_or_precedes (h : Numbered l) (ha : a ∈ l) (hb : b ∈ l) (hne : a ≠ b) :
    a.precedes b = true ∨ b.precedes a = true :=
  Request.precedes_or_precedes fun hseq => hne (h.eq_of_seq ha hb hseq)

/-- Of two requests of the list the one with the smaller number comes first. -/
theorem pair_sublist (h : Numbered l) (ha : a ∈ l) (hb : b ∈ l) (hlt : a.seq < b.seq) :
    [a, b].Sublist l := by
  induction l with
  | nil => exact absurd ha List.not_mem_nil
  | cons x rest ih =>
    have hrest := List.pairwise_cons.1 h
    rcases List.mem_cons.1 hb with rfl | hb
    · -- no request comes before the first
      rcases List.mem_cons.1 ha with rfl | ha
      · exact absurd hlt (Nat.lt_irrefl _)
      · exact absurd (hrest.1 a ha) (Nat.lt_asymm hlt)
    · rcases List.mem_cons.1 ha with heq | ha
      · rw [heq]
        exact List.cons_sublist_cons.2 (List.singleton_sublist.2 hb)
      · exact (ih hrest.2 ha hb).cons x

end Numbered

/-- There is a first request unless there is none at all. -/
theorem first?_eq_none : first? l = none ↔ l = [] := by
  cases l with
  | nil => exact iff_of_true rfl rfl
  | cons x rest =>
    refine iff_of_false (fun h => ?_) (List.cons_ne_nil x rest)
    unfold first? at h
    split at h
    · exact absurd h (by simp)
    · split at h
      · exact absurd h (by simp)
      · exact absurd h (by simp)

/-- The request that is served first precedes all others. -/
theorem precedes_of_first? (h : Numbered l) (hr : first? l = some r) :
    ∀ s ∈ l, s ≠ r → r.precedes s = true := by
  induction l generalizing r with
  | nil => exact fun s hs => absurd hs List.not_mem_nil
  | cons x rest ih =>
    have hrest : Numbered rest := h.sublist (List.sublist_cons_self x rest)
    intro s hs hne
    unfold first? at hr
    split at hr
    · next hnone =>
      obtain rfl := Option.some.inj hr
      rw [first?_eq_none.1 hnone] at hs
      exact absurd (List.mem_singleton.1 hs) hne
    · next f hf =>
      have hfmem : f ∈ x :: rest := List.mem_cons_of_mem x (first?_mem hf)
      split at hr
      · next hfx =>
        -- the first of the rest precedes the head
        obtain rfl := Option.some.inj hr
        rcases List.mem_cons.1 hs with rfl | hs
        · exact hfx
        · exact ih hrest hf s hs hne
      · next hfx =>
        obtain rfl := Option.some.inj hr
        rcases List.mem_cons.1 hs with rfl | hs
        · exact absurd rfl hne
        · -- the head precedes the first of the rest, and that one all others
          have hxf : x ≠ f := by
            rintro rfl
            exact (List.nodup_cons.1 h.nodup).1 (first?_mem hf)
          have hx : x.precedes f = true :=
            (h.precedes_or_precedes List.mem_cons_self hfmem hxf).resolve_right hfx
          by_cases hsf : s = f
          · exact hsf ▸ hx
          · exact precedes_trans hx (ih hrest hf s hs hsf)

/-! ## Serving all requests -/

/-- Every request precedes those that come later in the list. -/
def ServedInOrder (l : List Request) : Prop := l.Pairwise fun a b => a.precedes b = true

/-- Requests are served in one order only. -/
theorem eq_of_servedInOrder {l' : List Request} (h : ServedInOrder l) (h' : ServedInOrder l')
    (hperm : l.Perm l') : l = l' :=
  hperm.eq_of_pairwise (fun _ _ _ _ hab hba => absurd hba (precedes_asymm hab)) h h'

/-- Two elements of a list without duplicates come in one order only. -/
theorem not_pair_sublist_of_nodup (hl : l.Nodup) (hab : [a, b].Sublist l) :
    ¬ [b, a].Sublist l := by
  induction l with
  | nil => exact absurd hab (by simp)
  | cons x rest ih =>
    obtain ⟨hx, hrest⟩ := List.nodup_cons.1 hl
    have hmem : ∀ {c d : Request}, [c, d].Sublist rest → c ∈ rest ∧ d ∈ rest := fun h =>
      ⟨h.subset List.mem_cons_self, h.subset (List.mem_cons_of_mem _ List.mem_cons_self)⟩
    intro hba
    rcases List.cons_sublist_cons'.1 hab with hlater | ⟨rfl, hb⟩
    · rcases List.cons_sublist_cons'.1 hba with hba | ⟨rfl, -⟩
      · exact ih hrest hlater hba
      · exact hx (hmem hlater).2
    · rcases List.cons_sublist_cons'.1 hba with hba | ⟨rfl, ha⟩
      · exact hx (hmem hba).2
      · exact hx (List.singleton_sublist.1 ha)

/-- The stable sort by status and deadline is the order in which numbered requests are served. -/
theorem servedInOrder_mergeSort (h : Numbered l) : ServedInOrder (l.mergeSort mayPrecede) := by
  have htrans : ∀ a b c : Request, a.mayPrecede b = true → b.mayPrecede c = true →
      a.mayPrecede c = true := fun _ _ _ => mayPrecede_trans
  have hnodup : (l.mergeSort mayPrecede).Nodup := (List.mergeSort_perm l _).nodup_iff.2 h.nodup
  have hsorted := List.pairwise_mergeSort htrans mayPrecede_total l
  refine List.pairwise_iff_forall_sublist.2 fun {a b} hab => ?_
  have hmem : ∀ c ∈ [a, b], c ∈ l := fun c hc => (List.mergeSort_perm l _).mem_iff.1 (hab.subset hc)
  have ha := hmem a List.mem_cons_self
  have hb := hmem b (List.mem_cons_of_mem a List.mem_cons_self)
  have hkeys : a.mayPrecede b = true := List.pairwise_iff_forall_sublist.1 hsorted hab
  refine precedes_of_mayPrecede hkeys fun hback => ?_
  -- if the keys are equal and `b` was made before `a`, stability would put `b` first
  have hne : a ≠ b := by
    rintro rfl
    exact absurd (hab.nodup hnodup) (by simp)
  rcases Nat.lt_trichotomy a.seq b.seq with hlt | heq | hgt
  · exact hlt
  · exact absurd (h.eq_of_seq ha hb heq) hne
  · have hba := List.pair_sublist_mergeSort htrans mayPrecede_total hback (h.pair_sublist hb ha hgt)
    exact absurd hba (not_pair_sublist_of_nodup hnodup hab)

end Request

namespace UpdateQueue

open Request

variable {q : UpdateQueue}

/-- A queue without requests hands out none. -/
theorem pop_of_nil (h : q.entries = []) : q.pop = (none, q) := by
  rw [pop_eq, first?_eq_none.2 h]

/-- A queue with requests hands out the one that precedes all others. -/
theorem pop_of_ne_nil (h : Numbered q.entries) (hne : q.entries ≠ []) :
    ∃ r ∈ q.entries, q.pop = (some r, q.remove r) ∧
      ∀ s ∈ q.entries, s ≠ r → r.precedes s = true := by
  obtain ⟨r, hr⟩ := Option.ne_none_iff_exists'.1 fun hnone => hne (first?_eq_none.1 hnone)
  refine ⟨r, first?_mem hr, ?_, precedes_of_first? h hr⟩
  rw [pop_eq, hr]

/-- Removal leaves the other requests in their order. -/
theorem entries_remove_sublist (q : UpdateQueue) (r : Request) :
    (q.remove r).entries.Sublist q.entries := by
  unfold remove
  split
  · exact List.erase_sublist
  · exact List.Sublist.refl _

theorem size_remove {r : Request} (hr : r ∈ q.entries) : (q.remove r).size + 1 = q.size := by
  have hlength := (perm_entries_remove hr).length_eq
  rw [List.length_cons] at hlength
  exact hlength.symm

theorem take_of_nil (h : q.entries = []) (n : Nat) : q.take n = ([], q) := by
  cases n with
  | zero => rfl
  | succ n =>
    unfold take
    rw [pop_of_nil h]

/-- Taking out as many requests as there are takes out all of them, in the order of serving. -/
theorem take_of_size_le {n : Nat} (h : Numbered q.entries) (hn : q.size ≤ n) :
    (q.take n).1.Perm q.entries ∧ ServedInOrder (q.take n).1 ∧ (q.take n).2.entries = [] := by
  induction n generalizing q with
  | zero =>
    have hempty := List.eq_nil_of_length_eq_zero (Nat.le_zero.1 hn)
    rw [take_of_nil hempty]
    exact ⟨hempty ▸ .refl _, .nil, hempty⟩
  | succ n ih =>
    by_cases hempty : q.entries = []
    · rw [take_of_nil hempty]
      exact ⟨hempty ▸ .refl _, .nil, hempty⟩
    · obtain ⟨r, hr, hpop, hfirst⟩ := pop_of_ne_nil h hempty
      have hperm := perm_entries_remove hr
      have hsize : (q.remove r).size ≤ n := by
        rw [← size_remove hr] at hn
        exact Nat.le_of_succ_le_succ hn
      obtain ⟨hall, horder, hdone⟩ := ih (h.sublist (q.entries_remove_sublist r)) hsize
      have htake : q.take (n + 1) = (r :: ((q.remove r).take n).1, ((q.remove r).take n).2) := by
        simp only [take, hpop]
      rw [htake]
      refine ⟨(hall.cons r).trans hperm.symm, List.pairwise_cons.2 ⟨fun s hs => ?_, horder⟩, hdone⟩
      have hrest := hall.mem_iff.1 hs
      refine hfirst s ((q.entries_remove_sublist r).subset hrest) ?_
      rintro rfl
      -- a request that was taken out is not there any more
      exact (List.nodup_cons.1 (hperm.nodup_iff.1 h.nodup)).1 hrest

/-- Draining hands out every queued request, by the stable sort. -/
theorem drain_eq_mergeSort (h : Numbered q.entries) :
    q.drain.1 = q.entries.mergeSort mayPrecede := by
  obtain ⟨hall, horder, -⟩ := take_of_size_le h (Nat.le_refl q.size)
  exact eq_of_servedInOrder horder (servedInOrder_mergeSort h)
    (hall.trans (List.mergeSort_perm _ _).symm)

/-- Draining after pruning hands out the same requests in the same order, except for those that
were too old. -/
theorem drain_prune (h : Numbered q.entries) (now : Instant) :
    (q.prune now).2.drain.1 = q.drain.1.filter (isFresh now q.ttl) := by
  have hkept : Numbered (q.prune now).2.entries := h.sublist List.filter_sublist
  obtain ⟨hall, horder, -⟩ := take_of_size_le h (Nat.le_refl q.size)
  obtain ⟨hall', horder', -⟩ := take_of_size_le hkept (Nat.le_refl (q.prune now).2.size)
  exact eq_of_servedInOrder horder' (horder.filter _) (hall'.trans (hall.filter _).symm)

end UpdateQueue

end ComputePool
